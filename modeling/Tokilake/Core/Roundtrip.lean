import Tokilake.Core.TunnelStream
import Tokilake.Lib.Text

/-! # The response body of a tunnel request

`pumpTunnelBody` copies the chunks of the response frames into a pipe.  The body is `Honest` if it
shows a clean end only after an EOF frame, which fails when the transport itself ends with `io.EOF`
(`honest_iff`). -/

namespace Tokilake.Core.Roundtrip

open Lib Lib.Lines Core.TunnelStream

/-! ### The pipe -/

/-- The write half: the chunks read, how many the reader takes, and the first `CloseWithError`. -/
structure Pipe where
  chunks : List (List UInt8)
  patience : Option ℕ
  closed : Option (Option IOErr)
  deriving DecidableEq

def Pipe.fresh : Pipe := ⟨[], none, none⟩

def Pipe.write (p : Pipe) (chunk : List UInt8) : Except IOErr Pipe :=
  match p.patience with
  | none => .ok { p with chunks := p.chunks ++ [chunk] }
  | some 0 => .error .closedPipe
  | some (n + 1) => .ok { p with chunks := p.chunks ++ [chunk], patience := some n }

@[simp] def Pipe.closeWithError (p : Pipe) (err : Option IOErr) : Pipe :=
  { p with closed := p.closed.or (some err) }

/-- The error the reader gets behind the last chunk, if the pipe is closed. -/
def Pipe.ending (p : Pipe) : Option IOErr := p.closed.map fun err => err.getD .eof

/-! ### The pump -/

def newTunnelStreamError (err : ErrorMessage) : TunnelStreamError :=
  let code := Text.trimSpace err.code
  let message := Text.trimSpace err.message
  { statusCode := 502
    message := if message = "" then "tokiame stream error" else message
    type := "upstream_error"
    code := if code = "" then "tokiame_stream_error" else code }

variable (unmarshal : List UInt8 → Except String TunnelResponse)

lemma readMessage_lt {r r' : Reader UInt8 IOErr} {frame : TunnelResponse}
    (h : readMessage unmarshal r = (.ok frame, r')) : r'.pending.length < r.pending.length := by
  rcases readMessage_cases unmarshal r with ⟨-, h'⟩ | ⟨err, ms, -, h'⟩ | ⟨m, r'', -, h', -, hlt⟩
  · rw [h] at h'; cases h'
  · rw [h] at h'; cases h'
  · rw [h] at h'; cases h'; exact hlt

def pumpFrames (r : Reader UInt8 IOErr) (pipe : Pipe) : Pipe :=
  match _ : readMessage unmarshal r with
  | (.error err, _) => pipe.closeWithError (some err)
  | (.ok frame, r') =>
    match frame.error with
    | some err => pipe.closeWithError (some (.stream (newTunnelStreamError err)))
    | none =>
      match if frame.bodyChunk = [] then .ok pipe else pipe.write frame.bodyChunk with
      | .error err => pipe.closeWithError (some err)
      | .ok pipe => if frame.eof then pipe.closeWithError none else pumpFrames r' pipe
termination_by r.pending.length
decreasing_by exact readMessage_lt unmarshal ‹_›

variable (firstFrame : TunnelResponse)

variable (r : Reader UInt8 IOErr)

def pumpTunnelBody (pipe : Pipe) : Pipe :=
  match if firstFrame.bodyChunk = [] then .ok pipe else pipe.write firstFrame.bodyChunk with
  | .error err => pipe.closeWithError (some err)
  | .ok pipe =>
    if firstFrame.eof then pipe.closeWithError none else pumpFrames unmarshal r pipe

/-! ### How the frames end -/

inductive Ending
  | eofFrame
  | errorFrame (err : ErrorMessage)
  | badFrame (err : String)
  | transport (err : IOErr)
  deriving DecidableEq

@[simp] def ended (err : IOErr) : List (Except String TunnelResponse) → Ending
  | [] => .transport err
  | .error e :: _ => .badFrame e
  | .ok frame :: ms =>
    match frame.error with
    | some e => .errorFrame e
    | none => if frame.eof then .eofFrame else ended err ms

def chunkOf (frame : TunnelResponse) : List (List UInt8) :=
  if frame.bodyChunk = [] then [] else [frame.bodyChunk]

def decodedChunks : List (Except String TunnelResponse) → List (List UInt8)
  | [] => []
  | .error _ :: _ => []
  | .ok frame :: ms =>
    match frame.error with
    | some _ => []
    | none => chunkOf frame ++ if frame.eof then [] else decodedChunks ms

@[simp] def closing : Ending → Option IOErr
  | .eofFrame => none
  | .errorFrame e => some (.stream (newTunnelStreamError e))
  | .badFrame e => some (.decode ("decode tunnel message: " ++ e))
  | .transport e => some e

lemma write_patient (chunks : List (List UInt8)) (frame : TunnelResponse) :
    (if frame.bodyChunk = [] then .ok ⟨chunks, none, none⟩
      else Pipe.write ⟨chunks, none, none⟩ frame.bodyChunk) =
      (.ok ⟨chunks ++ chunkOf frame, none, none⟩ : Except IOErr Pipe) := by
  unfold chunkOf
  split_ifs <;> simp [Pipe.write]

lemma pumpFrames_spec (r : Reader UInt8 IOErr) (chunks : List (List UInt8)) :
    pumpFrames unmarshal r ⟨chunks, none, none⟩ =
      ⟨chunks ++ decodedChunks (messages unmarshal r), none,
        some (closing (ended r.ending (messages unmarshal r)))⟩ := by
  induction hn : r.pending.length using Nat.strong_induction_on generalizing r chunks with
  | _ n ih =>
    subst hn
    rw [pumpFrames]
    rcases readMessage_cases unmarshal r with ⟨hm, hr⟩ | ⟨err, ms, hm, hr⟩ |
      ⟨m, r', hm, hr, he, hlt⟩
    · split
      · next heq =>
        rw [heq] at hr; cases hr
        simp [hm, decodedChunks]
      · next heq => rw [heq] at hr; cases hr
    · split
      · next heq =>
        rw [heq] at hr; cases hr
        simp [hm, decodedChunks]
      · next heq => rw [heq] at hr; cases hr
    · split
      · next heq => rw [hr] at heq; cases heq
      next heq =>
      rw [hr] at heq
      cases heq
      rw [hm, write_patient]
      rcases hf : m.error with _ | e
      · by_cases heof : m.eof = true
        · simp [decodedChunks, hf, heof]
        · simp [decodedChunks, hf, heof, ih _ hlt r' _ rfl, he]
      · simp [decodedChunks, hf]

def bodyEnded : Ending :=
  if firstFrame.eof then .eofFrame else ended r.ending (messages unmarshal r)

def bodyChunks : List (List UInt8) :=
  chunkOf firstFrame ++ if firstFrame.eof then [] else decodedChunks (messages unmarshal r)

lemma pump_spec : pumpTunnelBody unmarshal firstFrame r .fresh =
      ⟨bodyChunks unmarshal firstFrame r, none,
        some (closing (bodyEnded unmarshal firstFrame r))⟩ := by
  unfold pumpTunnelBody Pipe.fresh
  rw [write_patient]
  by_cases heof : firstFrame.eof = true
  · simp [bodyChunks, bodyEnded, heof]
  · simp [bodyChunks, bodyEnded, heof, pumpFrames_spec]

/-! ### Clean ends -/

/-- The reader gets the chunks decoded, and `io.EOF` after them only if an EOF frame was. -/
def Honest : Prop :=
  let body := pumpTunnelBody unmarshal firstFrame r .fresh
  body.chunks = bodyChunks unmarshal firstFrame r ∧
    (body.ending = some .eof → bodyEnded unmarshal firstFrame r = .eofFrame) ∧
    (bodyEnded unmarshal firstFrame r ≠ .eofFrame → ∃ err, body.ending = some err ∧ err ≠ .eof)

@[simp] def endsBody : Except String TunnelResponse → Bool
  | .error _ => true
  | .ok frame => frame.error.isSome || frame.eof

lemma ended_transport_iff {err err' : IOErr} : ∀ {ms : List (Except String TunnelResponse)},
    ended err ms = .transport err' ↔ err = err' ∧ ∀ m ∈ ms, endsBody m = false
  | [] => by simp
  | .error e :: ms => by simp
  | .ok frame :: ms => by
    rcases hf : frame.error with _ | e
    · by_cases heof : frame.eof = true
      · simp [hf, heof]
      · simp [hf, heof, ended_transport_iff]
    · simp [hf]

lemma closing_eof_iff {e : Ending} :
    (closing e).getD .eof = .eof ↔ e = .eofFrame ∨ e = .transport .eof := by
  cases e <;> simp

lemma honest_iff_bodyEnded :
    Honest unmarshal firstFrame r ↔ bodyEnded unmarshal firstFrame r ≠ .transport .eof := by
  simp only [Honest, pump_spec, Pipe.ending, Option.map_some, Option.some.injEq, closing_eof_iff,
    true_and]
  constructor
  · rintro ⟨h, -⟩ he
    have := h (Or.inr he)
    rw [he] at this; cases this
  · intro h
    refine ⟨fun h' => h'.resolve_right h, fun h' => ⟨_, rfl, fun h'' => ?_⟩⟩
    exact (closing_eof_iff.mp h'').elim h' h

/-- **When the body is honest**: a line ends it, or another error than `io.EOF` does. -/
theorem honest_iff (firstFrame : TunnelResponse) (r : Reader UInt8 IOErr) :
    Honest unmarshal firstFrame r ↔
      firstFrame.eof = true ∨ (∃ m ∈ messages unmarshal r, endsBody m = true) ∨
        r.ending ≠ .eof := by
  rw [honest_iff_bodyEnded, bodyEnded]
  by_cases heof : firstFrame.eof = true
  · simp [heof]
  simp only [heof, if_false, Bool.false_eq_true, ne_eq, ended_transport_iff, false_or, not_and,
    not_forall, Bool.not_eq_false]
  constructor
  · intro h
    by_cases he : r.ending = .eof
    · obtain ⟨m, hm, h'⟩ := h he
      exact Or.inl ⟨m, hm, h'⟩
    · exact Or.inr he
  · rintro (⟨m, hm, h'⟩ | h) he
    · exact ⟨m, hm, h'⟩
    · exact absurd he h

def headerFrame : TunnelResponse := ⟨"r", 200, [], [], false, none⟩

def unmarshalChunk (line : List UInt8) : Except String TunnelResponse :=
  if line = Bytes.ascii "\x7b\"request_id\":\"r\",\"body_chunk\":\"aGk=\"\x7d" then
    .ok ⟨"r", 0, [], [0x68, 0x69], false, none⟩
  else .error "unexpected end of JSON input"

def cutOff : Reader UInt8 IOErr where
  buffer := []
  reads := [Bytes.ascii
    "\x7b\"request_id\":\"r\",\"body_chunk\":\"aGk=\"\x7d\n\x7b\"request_id\":\"r"]
  ending := .eof

/-- **A cut connection looks like a complete answer.** -/
theorem cutOff_dishonest :
    (pumpTunnelBody unmarshalChunk headerFrame cutOff .fresh).chunks = [[0x68, 0x69]] ∧
      (pumpTunnelBody unmarshalChunk headerFrame cutOff .fresh).ending = some .eof ∧
      (∀ m ∈ messages unmarshalChunk cutOff, endsBody m = false) ∧
      ¬ Honest unmarshalChunk headerFrame cutOff := by
  rw [honest_iff_bodyEnded, pump_spec]
  decide

end Tokilake.Core.Roundtrip
