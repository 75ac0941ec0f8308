import Mathlib.Data.List.AList
import Tokilake.Lib.Base64
import Tokilake.Lib.Json

/-! # Two schemas for a request

The Go side writes a body in base64, and `serde_bytes` takes the characters of a string as they are:
such a body is read, and is the wrong body.  Values are JSON values with valid UTF-8.

`serialize` and `deserialize` stand for what `serde_json` derives for the Rust type, `marshal` and
`unmarshal` for `encoding/json`.  Member names are compared exactly; `encoding/json` also takes a
name in other case, which no writer here produces.

* `roundTrips_iff`: when a request comes back. -/

namespace Tokilake.Tunnel.Schema

open Lib Lib.Json List

abbrev Headers := AList fun _ : String => String

structure TunnelRequest where
  requestId : String := ""
  routeKind : String := ""
  method : String := ""
  path : String := ""
  model : String := ""
  headers : Headers := ∅
  isStream : Bool := false
  body : List UInt8 := []

structure TunnelRequest.Same (r s : TunnelRequest) : Prop where
  requestId : r.requestId = s.requestId
  routeKind : r.routeKind = s.routeKind
  method : r.method = s.method
  path : r.path = s.path
  model : r.model = s.model
  headers : ∀ name, r.headers.lookup name = s.headers.lookup name
  isStream : r.isStream = s.isStream
  body : r.body = s.body

def members (headers : List (Σ _ : String, String)) : List (String × Value) :=
  headers.map fun h => (h.1, .str h.2)

def insertAll (read : Value → Option String) : Headers → List (String × Value) → Option Headers
  | headers, [] => some headers
  | headers, m :: ms => do
    let value ← read m.2
    insertAll read (headers.insert m.1 value) ms

/-! ### The Rust schema -/

variable (r : TunnelRequest)

def serialize : Value :=
  .obj [("request_id", .str r.requestId), ("route_kind", .str r.routeKind),
    ("method", .str r.method), ("path", .str r.path), ("model", .str r.model),
    ("headers", .obj (members r.headers.entries)), ("is_stream", .bool r.isStream),
    ("body", .arr (r.body.map fun b => .num b.toNat))]

@[simp] def member (ms : List (String × Value)) (name : String) : Option (Option Value) :=
  match ms.filter fun m => m.1 = name with
  | [] => some none
  | [m] => some (some m.2)
  | _ => none

def string : Value → Option String
  | .str s => some s
  | _ => none

def bool : Value → Option Bool
  | .bool b => some b
  | _ => none

def stringMap : Value → Option Headers
  | .obj ms => insertAll string ∅ ms
  | _ => none

def byte : Value → Option UInt8
  | .num n => if n < 256 then some (UInt8.ofNat n) else none
  | _ => none

def byteBuf : Value → Option (List UInt8)
  | .str s => some (s.toList.flatMap String.utf8EncodeChar)
  | .arr vs => vs.mapM byte
  | _ => none

def required {τ : Type} (ms : List (String × Value)) (name : String) (read : Value → Option τ) :
    Option τ := do
  let v ← member ms name
  v.bind read

def defaulted {τ : Type} (ms : List (String × Value)) (name : String) (read : Value → Option τ)
    (default : τ) : Option τ := do
  match ← member ms name with
  | none => some default
  | some v => read v

def deserialize : Value → Option TunnelRequest
  | .obj ms => do
    let requestId ← required ms "request_id" string
    let routeKind ← required ms "route_kind" string
    let method ← required ms "method" string
    let path ← required ms "path" string
    let model ← defaulted ms "model" string ""
    let headers ← defaulted ms "headers" stringMap ∅
    let isStream ← defaulted ms "is_stream" bool false
    let body ← defaulted ms "body" byteBuf []
    some ⟨requestId, routeKind, method, path, model, headers, isStream, body⟩
  | _ => none

/-! ### The Go schema -/

def omitEmpty (empty : Prop) [Decidable empty] (name : String) (v : Value) :
    List (String × Value) :=
  if empty then [] else [(name, v)]

def sorted (headers : Headers) : List (Σ _ : String, String) :=
  headers.entries.mergeSort fun a b => a.1 ≤ b.1

def base64 (bs : List UInt8) : String := String.ofList (Base64.encode bs)

def fields : List (String × Value) :=
  [("request_id", .str r.requestId), ("route_kind", .str r.routeKind), ("method", .str r.method),
      ("path", .str r.path)] ++ omitEmpty (r.model = "") "model" (.str r.model) ++
    omitEmpty (r.headers.entries = []) "headers" (.obj (members (sorted r.headers))) ++
    omitEmpty (r.isStream = false) "is_stream" (.bool r.isStream) ++
    omitEmpty (r.body = []) "body" (.str (base64 r.body))

def marshal : Value := .obj (fields r)

@[simp] def goString (old : String) : Value → Option String
  | .str s => some s
  | .null => some old
  | _ => none

def goBool (old : Bool) : Value → Option Bool
  | .bool b => some b
  | .null => some old
  | _ => none

def goMap (old : Headers) : Value → Option Headers
  | .obj ms => insertAll (goString "") old ms
  | .null => some ∅
  | _ => none

def goByte : Value → Option UInt8
  | .null => some 0
  | v => byte v

def goBytes : Value → Option (List UInt8)
  | .str s => Base64.decode false (s.toList.filter fun c => c ≠ '\r' ∧ c ≠ '\n')
  | .arr vs => vs.mapM goByte
  | .null => some []
  | _ => none

def setField (m : String × Value) : Option TunnelRequest :=
  if m.1 = "request_id" then (goString r.requestId m.2).map fun s => { r with requestId := s }
  else if m.1 = "route_kind" then (goString r.routeKind m.2).map fun s => { r with routeKind := s }
  else if m.1 = "method" then (goString r.method m.2).map fun s => { r with method := s }
  else if m.1 = "path" then (goString r.path m.2).map fun s => { r with path := s }
  else if m.1 = "model" then (goString r.model m.2).map fun s => { r with model := s }
  else if m.1 = "headers" then (goMap r.headers m.2).map fun h => { r with headers := h }
  else if m.1 = "is_stream" then (goBool r.isStream m.2).map fun b => { r with isStream := b }
  else if m.1 = "body" then (goBytes m.2).map fun bs => { r with body := bs }
  else some r

def setFields : TunnelRequest → List (String × Value) → Option TunnelRequest
  | r, [] => some r
  | r, m :: ms => (setField r m).bind fun r => setFields r ms

def unmarshal : Value → Option TunnelRequest
  | .obj ms => setFields {} ms
  | .null => some {}
  | _ => none

/-! ### Headers -/

lemma insertAll_members {read : Value → Option String} (hread : ∀ s, read (.str s) = some s)
    {l : List (Σ _ : String, String)} (hl : l.NodupKeys) (old : Headers) :
    ∃ headers, insertAll read old (members l) = some headers ∧
      ∀ name, headers.lookup name = (l.dlookup name).or (old.lookup name) := by
  induction l generalizing old with
  | nil => exact ⟨old, rfl, fun _ => rfl⟩
  | cons h l ih =>
    obtain ⟨hfresh, hrest⟩ := nodupKeys_cons.mp hl
    obtain ⟨headers, heq, hlookup⟩ := ih hrest (old.insert h.1 h.2)
    refine ⟨headers, ?_, fun name => ?_⟩
    · simpa [members, insertAll, hread] using heq
    · rw [hlookup]
      by_cases hname : name = h.1
      · subst hname
        have hnone := dlookup_eq_none.mpr hfresh
        have hhead := dlookup_cons_eq l h.1 h.2
        rw [hnone, hhead, AList.lookup_insert]
        rfl
      · rw [AList.lookup_insert_ne hname, dlookup_cons_ne _ _ hname]

lemma insertAll_perm {read : Value → Option String} (hread : ∀ s, read (.str s) = some s)
    {headers : Headers} {l : List (Σ _ : String, String)} (hl : l.Perm headers.entries) :
    ∃ again, insertAll read ∅ (members l) = some again ∧
      ∀ name, again.lookup name = headers.lookup name := by
  have hnodup : l.NodupKeys := (perm_nodupKeys hl).mpr headers.nodupKeys
  obtain ⟨again, heq, hlookup⟩ := insertAll_members hread hnodup ∅
  refine ⟨again, heq, fun name => ?_⟩
  rw [hlookup, perm_dlookup name hnodup hl]
  simp [AList.lookup]

lemma sorted_perm (headers : Headers) : (sorted headers).Perm headers.entries := mergeSort_perm ..

/-! ### Bytes -/

lemma byte_num (b : UInt8) : byte (.num b.toNat) = some b := by simp [byte, b.toNat_lt]

lemma goByte_num (b : UInt8) : goByte (.num b.toNat) = some b := byte_num b

lemma mapM_byte {read : Value → Option UInt8} (hread : ∀ b : UInt8, read (.num b.toNat) = some b)
    (bs : List UInt8) : (bs.map fun b => Value.num b.toNat).mapM read = some bs := by
  induction bs with
  | nil => rfl
  | cons b bs ih => simp [hread, ih]

lemma byteBuf_base64 {bs : List UInt8} (hne : bs ≠ []) : byteBuf (.str (base64 bs)) ≠ some bs := by
  intro heq
  have hlen : ∀ cs : List Char, cs.length ≤ (cs.flatMap String.utf8EncodeChar).length := by
    intro cs
    induction cs with
    | nil => exact Nat.le_refl 0
    | cons c cs ih =>
      have hpos := c.utf8Size_pos
      rw [flatMap_cons, length_append, String.length_utf8EncodeChar, length_cons]
      omega
  have hchars := hlen (Base64.encode bs)
  have hbytes : (Base64.encode bs).flatMap String.utf8EncodeChar = bs := by
    simpa [byteBuf, base64] using heq
  have hpos := length_pos_of_ne_nil hne
  rw [hbytes, Base64.length_encode] at hchars
  omega

/-! ### From Rust to Go -/

lemma unmarshal_serialize : ∃ s, unmarshal (serialize r) = some s ∧ s.Same r := by
  have hread : ∀ s, goString "" (.str s) = some s := fun _ => rfl
  obtain ⟨headers, heq, hlookup⟩ := insertAll_perm hread (List.Perm.refl r.headers.entries)
  have hbody : goBytes (.arr (r.body.map fun b => .num b.toNat)) = some r.body :=
    mapM_byte goByte_num r.body
  refine ⟨{ r with headers := headers }, ?_, ⟨rfl, rfl, rfl, rfl, rfl, hlookup, rfl, rfl⟩⟩
  simp [unmarshal, serialize, setFields, setField, goMap, goBool, heq, hbody]

/-! ### From Go to Rust -/

@[simp] lemma filter_omitEmpty (empty : Prop) [Decidable empty] (n : String) (v : Value)
    (name : String) :
    (omitEmpty empty n v).filter (fun m => m.1 = name) =
      if n = name then omitEmpty empty n v else [] := by
  unfold omitEmpty
  split_ifs with hempty hname hname
  · rfl
  · rfl
  · simp [hname]
  · simp [hname]

lemma required_of_filter {τ : Type} {ms : List (String × Value)} {name : String}
    {read : Value → Option τ} {v : Value} (h : ms.filter (fun m => m.1 = name) = [(name, v)]) :
    required ms name read = read v := by
  simp [required, h]

lemma defaulted_of_filter {τ : Type} {ms : List (String × Value)} {name : String}
    {read : Value → Option τ} {v : Value} {default x : τ} {p : Prop} [Decidable p]
    (h : ms.filter (fun m => m.1 = name) = omitEmpty p name v) (hempty : p → default = x)
    (hread : ¬ p → read v = some x) : defaulted ms name read default = some x := by
  by_cases he : p
  · simp [defaulted, h, omitEmpty, he, hempty he]
  · simp [defaulted, h, omitEmpty, he, hread he]

lemma defaulted_headers {ms : List (String × Value)} {headers : Headers}
    (h : ms.filter (fun m => m.1 = "headers") =
      omitEmpty (headers.entries = []) "headers" (.obj (members (sorted headers)))) :
    ∃ headers', defaulted ms "headers" stringMap ∅ = some headers' ∧
      ∀ name, headers'.lookup name = headers.lookup name := by
  have hread : ∀ s, string (.str s) = some s := fun _ => rfl
  obtain ⟨headers', heq, hlookup⟩ := insertAll_perm hread (sorted_perm headers)
  by_cases hempty : headers.entries = []
  · refine ⟨∅, defaulted_of_filter h (fun _ => rfl) fun hne => absurd hempty hne, fun name => ?_⟩
    simp [AList.lookup, hempty]
  · exact ⟨headers', defaulted_of_filter h (fun he => absurd he hempty) fun _ => heq, hlookup⟩

def mangled : TunnelRequest :=
  { r with body := if r.body = [] then []
    else (base64 r.body).toList.flatMap String.utf8EncodeChar }

lemma deserialize_marshal : ∃ s, deserialize (marshal r) = some s ∧ s.Same (mangled r) := by
  have hid : required (fields r) "request_id" string = some r.requestId :=
    required_of_filter (v := .str r.requestId) (by simp [fields])
  have hkind : required (fields r) "route_kind" string = some r.routeKind :=
    required_of_filter (v := .str r.routeKind) (by simp [fields])
  have hmethod : required (fields r) "method" string = some r.method :=
    required_of_filter (v := .str r.method) (by simp [fields])
  have hpath : required (fields r) "path" string = some r.path :=
    required_of_filter (v := .str r.path) (by simp [fields])
  have hmodel : defaulted (fields r) "model" string "" = some r.model :=
    defaulted_of_filter (v := .str r.model) (by simp [fields])
      Eq.symm fun _ => rfl
  have hstream : defaulted (fields r) "is_stream" bool false = some r.isStream :=
    defaulted_of_filter (v := .bool r.isStream)
      (by simp [fields]) Eq.symm fun _ => rfl
  have hbody : defaulted (fields r) "body" byteBuf [] = some (mangled r).body := by
    refine defaulted_of_filter (p := r.body = []) (v := .str (base64 r.body))
      (by simp [fields]) (fun h => ?_) fun h => ?_
    · rw [mangled, if_pos h]
    · rw [mangled, if_neg h, byteBuf]
  have hmembers : (fields r).filter (fun m => m.1 = "headers") = omitEmpty
      (r.headers.entries = []) "headers" (.obj (members (sorted r.headers))) := by
    simp [fields]
  obtain ⟨headers', hheaders, hlookup'⟩ := defaulted_headers hmembers
  refine ⟨⟨r.requestId, r.routeKind, r.method, r.path, r.model, headers', r.isStream,
    (mangled r).body⟩, ?_, ⟨rfl, rfl, rfl, rfl, rfl, hlookup', rfl, rfl⟩⟩
  simp [marshal, deserialize, hid, hkind, hmethod, hpath, hmodel, hheaders, hstream, hbody]

/-! ### Both directions -/

def RoundTrips : Prop :=
  (∃ s, deserialize (marshal r) = some s ∧ s.Same r) ∧
    ∃ s, unmarshal (serialize r) = some s ∧ s.Same r

/-- **Which requests come back**: those without a body. -/
theorem roundTrips_iff (r : TunnelRequest) : RoundTrips r ↔ r.body = [] := by
  obtain ⟨s, hs, hsame⟩ := deserialize_marshal r
  constructor
  · rintro ⟨⟨t, ht, hback⟩, -⟩
    by_contra hne
    rw [hs, Option.some.injEq] at ht
    subst ht
    have hbody := hsame.body.symm.trans hback.body
    rw [mangled, if_neg hne] at hbody
    exact byteBuf_base64 hne (congrArg some hbody)
  · intro hempty
    have hid : mangled r = r := by rw [mangled, if_pos hempty, ← hempty]
    rw [hid] at hsame
    exact ⟨⟨s, hs, hsame⟩, unmarshal_serialize r⟩

/-- Go writes the body of one byte `h` as `"aA=="`, and Rust reads these four characters. -/
theorem base64_body :
    (deserialize (marshal { requestId := "r", method := "POST", body := [104] })).map
      TunnelRequest.body = some [97, 65, 61, 61] ∧
    ¬ RoundTrips { requestId := "r", method := "POST", body := [104] } := by
  have hbody : (deserialize (marshal { requestId := "r", method := "POST", body := [104] })).map
      TunnelRequest.body = some [97, 65, 61, 61] := by
    decide
  refine ⟨hbody, ?_⟩
  rintro ⟨⟨s, hs, hsame⟩, -⟩
  rw [hs, Option.map_some, hsame.body] at hbody
  cases hbody

end Tokilake.Tunnel.Schema
