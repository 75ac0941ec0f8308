import Tokilake.Core.TunnelStream
import Tokilake.Tunnel.Schema

/-! # Two schemas for a response

The frames of a response have a schema on each side, too.  As for requests, values are JSON values
with valid UTF-8, and the readers and writers stand for those of `serde_json` and `encoding/json`.

* `roundTrips_of_status`: both directions, for each status of 16 bits. -/

namespace Tokilake.Tunnel.ResponseSchema

open Lib Lib.Json Tunnel.Schema
open Core.TunnelStream (ErrorMessage)

structure TunnelResponse where
  requestId : String := ""
  statusCode : ℕ := 0
  headers : Headers := ∅
  bodyChunk : List UInt8 := []
  eof : Bool := false
  error : Option ErrorMessage := none

structure TunnelResponse.Same (r s : TunnelResponse) : Prop where
  requestId : r.requestId = s.requestId
  statusCode : r.statusCode = s.statusCode
  headers : ∀ name, r.headers.lookup name = s.headers.lookup name
  bodyChunk : r.bodyChunk = s.bodyChunk
  eof : r.eof = s.eof
  error : r.error = s.error

variable (e : ErrorMessage)

def errorFields : List (String × Value) :=
  omitEmpty (e.code = "") "code" (.str e.code) ++ [("message", .str e.message)]

def errorMember : Option ErrorMessage → List (String × Value)
  | none => []
  | some e => [("error", .obj (errorFields e))]

/-! ### The Rust schema -/

variable (r : TunnelResponse)

def serialize : Value :=
  .obj ([("request_id", .str r.requestId), ("status_code", .num r.statusCode),
    ("headers", .obj (members r.headers.entries)),
    ("body_chunk", .arr (r.bodyChunk.map fun b => .num b.toNat)), ("eof", .bool r.eof)] ++
    errorMember r.error)

def u16 : Value → Option ℕ
  | .num n => if n < 2 ^ 16 then some n else none
  | _ => none

def bodyChunk : Value → Option (List UInt8)
  | .str s => Base64.decode true s.toList
  | .arr vs => vs.mapM byte
  | _ => none

def errorMessage : Value → Option (Option ErrorMessage)
  | .null => some none
  | .obj ms => do
    let code ← defaulted ms "code" string ""
    let message ← required ms "message" string
    some (some ⟨code, message⟩)
  | _ => none

def deserialize : Value → Option TunnelResponse
  | .obj ms => do
    let requestId ← required ms "request_id" string
    let statusCode ← defaulted ms "status_code" u16 0
    let headers ← defaulted ms "headers" stringMap ∅
    let chunk ← defaulted ms "body_chunk" bodyChunk []
    let eof ← defaulted ms "eof" bool false
    let error ← defaulted ms "error" errorMessage none
    some ⟨requestId, statusCode, headers, chunk, eof, error⟩
  | _ => none

/-! ### The Go schema -/

def fields : List (String × Value) :=
  [("request_id", .str r.requestId)] ++
    omitEmpty (r.statusCode = 0) "status_code" (.num r.statusCode) ++
    omitEmpty (r.headers.entries = []) "headers" (.obj (members (sorted r.headers))) ++
    omitEmpty (r.bodyChunk = []) "body_chunk" (.str (base64 r.bodyChunk)) ++
    omitEmpty (r.eof = false) "eof" (.bool r.eof) ++ errorMember r.error

def marshal : Value := .obj (fields r)

def goInt (old : ℕ) : Value → Option ℕ
  | .num n => if n < 2 ^ 63 then some n else none
  | .null => some old
  | _ => none

def setErrorField (m : String × Value) : Option ErrorMessage :=
  if m.1 = "code" then (goString e.code m.2).map fun s => { e with code := s }
  else if m.1 = "message" then (goString e.message m.2).map fun s => { e with message := s }
  else some e

def goError (old : Option ErrorMessage) : Value → Option (Option ErrorMessage)
  | .obj ms => (ms.foldlM setErrorField (old.getD ⟨"", ""⟩)).map some
  | .null => some none
  | _ => none

def setField (m : String × Value) : Option TunnelResponse :=
  if m.1 = "request_id" then (goString r.requestId m.2).map fun s => { r with requestId := s }
  else if m.1 = "status_code" then (goInt r.statusCode m.2).map fun n => { r with statusCode := n }
  else if m.1 = "headers" then (goMap r.headers m.2).map fun h => { r with headers := h }
  else if m.1 = "body_chunk" then (goBytes m.2).map fun bs => { r with bodyChunk := bs }
  else if m.1 = "eof" then (goBool r.eof m.2).map fun b => { r with eof := b }
  else if m.1 = "error" then (goError r.error m.2).map fun e => { r with error := e }
  else some r

def unmarshal : Value → Option TunnelResponse
  | .obj ms => ms.foldlM setField {}
  | .null => some {}
  | _ => none

/-! ### From Rust to Go -/

lemma goError_errorFields : goError none (.obj (errorFields e)) = some (some e) := by
  obtain ⟨code, message⟩ := e
  by_cases hcode : code = ""
  · subst hcode
    simp [goError, errorFields, omitEmpty, setErrorField]
  · simp [goError, errorFields, omitEmpty, setErrorField, hcode]

lemma unmarshal_serialize {r : TunnelResponse} (hstatus : r.statusCode ≤ 65535) :
    ∃ s, unmarshal (serialize r) = some s ∧ s.Same r := by
  have hread : ∀ s, goString "" (.str s) = some s := fun _ => rfl
  obtain ⟨headers, heq, hlookup⟩ := insertAll_perm hread (List.Perm.refl r.headers.entries)
  have hchunk : goBytes (.arr (r.bodyChunk.map fun b => .num b.toNat)) = some r.bodyChunk :=
    mapM_byte goByte_num r.bodyChunk
  have hint : goInt 0 (.num r.statusCode) = some r.statusCode := if_pos (by omega)
  refine ⟨{ r with headers := headers }, ?_, ⟨rfl, rfl, hlookup, rfl, rfl, rfl⟩⟩
  cases herror : r.error with
  | none =>
    simp [unmarshal, serialize, setField, goMap, goBool, errorMember, heq, hchunk, hint, herror]
  | some e =>
    simp [unmarshal, serialize, setField, goMap, goBool, errorMember, heq, hchunk, hint, herror,
      goError_errorFields]

/-! ### From Go to Rust -/

lemma bodyChunk_base64 (bs : List UInt8) : bodyChunk (.str (base64 bs)) = some bs := by
  rw [bodyChunk, base64, String.toList_ofList, Base64.decode_encode]

lemma errorMessage_errorFields : errorMessage (.obj (errorFields e)) = some (some e) := by
  have hcode : defaulted (errorFields e) "code" string "" = some e.code :=
    defaulted_of_filter (v := .str e.code)
      (by simp [errorFields]) Eq.symm fun _ => rfl
  have hmessage : required (errorFields e) "message" string = some e.message :=
    required_of_filter (v := .str e.message) (by simp [errorFields])
  simp [errorMessage, hcode, hmessage]

@[simp] lemma filter_errorMember (error : Option ErrorMessage) (name : String) :
    (errorMember error).filter (fun m => m.1 = name) =
      if "error" = name then errorMember error else [] := by
  cases error with
  | none => simp [errorMember]
  | some e => by_cases hname : "error" = name <;> simp [errorMember, hname]

lemma deserialize_marshal {r : TunnelResponse} (hstatus : r.statusCode ≤ 65535) :
    ∃ s, deserialize (marshal r) = some s ∧ s.Same r := by
  have hid : required (fields r) "request_id" string = some r.requestId :=
    required_of_filter (v := .str r.requestId) (by simp [fields])
  have hcode : defaulted (fields r) "status_code" u16 0 = some r.statusCode :=
    defaulted_of_filter (v := .num r.statusCode)
      (by simp [fields]) Eq.symm fun _ => if_pos (by omega)
  have hchunk : defaulted (fields r) "body_chunk" bodyChunk [] = some r.bodyChunk :=
    defaulted_of_filter
      (by simp [fields]) Eq.symm
      fun _ => bodyChunk_base64 r.bodyChunk
  have heof : defaulted (fields r) "eof" bool false = some r.eof :=
    defaulted_of_filter (v := .bool r.eof)
      (by simp [fields]) Eq.symm fun _ => rfl
  have hmembers : (fields r).filter (fun m => m.1 = "error") = errorMember r.error := by
    simp [fields]
  have herror : defaulted (fields r) "error" errorMessage none = some r.error := by
    cases he : r.error with
    | none => simp [defaulted, hmembers, he, errorMember]
    | some e => simp [defaulted, hmembers, he, errorMember, errorMessage_errorFields]
  have hmap : (fields r).filter (fun m => m.1 = "headers") = omitEmpty (r.headers.entries = [])
      "headers" (.obj (members (sorted r.headers))) := by
    simp [fields]
  obtain ⟨headers', hheaders, hlookup'⟩ := defaulted_headers hmap
  refine ⟨⟨r.requestId, r.statusCode, headers', r.bodyChunk, r.eof, r.error⟩, ?_,
    ⟨rfl, rfl, hlookup', rfl, rfl, rfl⟩⟩
  simp [marshal, deserialize, hid, hcode, hheaders, hchunk, heof, herror]

/-! ### Both directions -/

/-- **Every response comes back**, from Go to Rust and from Rust to Go. -/
theorem roundTrips_of_status (r : TunnelResponse) (hstatus : r.statusCode ≤ 65535) :
    (∃ s, deserialize (marshal r) = some s ∧ s.Same r) ∧
      ∃ s, unmarshal (serialize r) = some s ∧ s.Same r :=
  ⟨deserialize_marshal hstatus, unmarshal_serialize hstatus⟩

def lastFrame : TunnelResponse where
  requestId := "r"
  statusCode := 65535
  bodyChunk := [104, 0, 255]
  eof := true
  error := some ⟨"", "stopped"⟩

theorem roundTrips_lastFrame : lastFrame.statusCode ≤ 65535 ∧
    (∃ s, deserialize (marshal lastFrame) = some s ∧ s.Same lastFrame) ∧
      ∃ s, unmarshal (serialize lastFrame) = some s ∧ s.Same lastFrame :=
  ⟨le_rfl, roundTrips_of_status lastFrame le_rfl⟩

end Tokilake.Tunnel.ResponseSchema
