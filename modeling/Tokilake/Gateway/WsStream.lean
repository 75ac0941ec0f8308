import Tokilake.Lib.Run

/-! # A byte stream over WebSocket messages

A read takes the next incoming message, a write puts its bytes into a bounded channel as one
message.

* `stream_faithful_iff`: when both directions keep the bytes. -/

namespace Tokilake.Gateway.WsStream

open Lib.Run

abbrev Bytes := List UInt8

/-- The adapter with the two channels; the fields from `received` on are histories. -/
structure Stream where
  buffer : Bytes := []
  rx : List Bytes := []
  rxClosed : Bool := false
  capacity : ℕ
  tx : List Bytes := []
  txClosed : Bool := false
  received : Bytes := []
  bytesRead : Bytes := []
  reported : Bytes := []
  handed : Bytes := []
  endedEarly : Bool := false

/-- A `poll_read` waits, or fills a part of its buffer; no bytes are the end for its callers. -/
inductive Poll
  | pending
  | ready (data : Bytes)
  deriving DecidableEq

/-- `poll_read`: what is returned, and what is left of the buffer and of the channel. -/
def Stream.pollRead (s : Stream) (room : ℕ) : Poll × Bytes × List Bytes :=
  if s.buffer ≠ [] then (.ready (s.buffer.take room), s.buffer.drop room, s.rx)
  else match s.rx with
    | data :: rx =>
      if data = [] then (.ready [], [], rx) else (.ready (data.take room), data.drop room, rx)
    | [] => if s.rxClosed then (.ready [], [], []) else (.pending, [], [])

/-- `poll_write`: whether the message is queued, and what is returned.  A full channel drops it. -/
def Stream.pollWrite (s : Stream) (buf : Bytes) : Bool × Except String ℕ :=
  if s.txClosed then (false, .error "channel closed")
  else if s.tx.length < s.capacity then (true, .ok buf.length)
  else (false, .ok buf.length)

/-- Messages come in, the stream is read or written, the outgoing channel is emptied or gone. -/
inductive Act
  | arrive (data : Bytes)
  | close
  | read (room : ℕ)
  | write (buf : Bytes)
  | drain
  | hangUp

/-- One step of the socket, the reader or the writer, with its histories. -/
def Stream.step (s : Stream) : Act → Option Stream
  | .arrive data =>
    if s.rxClosed then none
    else some { s with rx := s.rx ++ [data], received := s.received ++ data }
  | .close => some { s with rxClosed := true }
  | .read room =>
    match s.pollRead room with
    | (.pending, _, _) => some s
    | (.ready data, buffer, rx) =>
      some { s with
        buffer, rx
        bytesRead := s.bytesRead ++ data
        endedEarly := s.endedEarly || decide (0 < room ∧ data = [] ∧ ¬ (s.rxClosed ∧ s.rx = [])) }
  | .write buf =>
    match s.pollWrite buf with
    | (_, .error _) => some s
    | (sent, .ok n) =>
      some { s with
        tx := if sent then s.tx ++ [buf] else s.tx
        reported := s.reported ++ buf.take n
        handed := if sent then s.handed ++ buf else s.handed }
  | .drain =>
    match s.tx with
    | [] => none
    | _ :: tx => some { s with tx }
  | .hangUp => some { s with txClosed := true }

/-- Bytes reported are in the channel, bytes read are those that came in, and no read ends early. -/
structure Faithful (s : Stream) : Prop where
  written : s.handed = s.reported
  incoming : s.bytesRead ++ s.buffer ++ s.rx.flatten = s.received
  ended : s.endedEarly = false

/-- No write finds the channel full, and no read with room an empty message. -/
def Harmless (s : Stream) : Act → Prop
  | .write buf => s.txClosed = true ∨ s.tx.length < s.capacity ∨ buf = []
  | .read room => room = 0 ∨ s.buffer ≠ [] ∨ s.rx.head? ≠ some []
  | _ => True

variable {s t : Stream}

lemma pollRead_cases (s : Stream) (room : ℕ) :
    (s.buffer ≠ [] ∧ s.pollRead room = (.ready (s.buffer.take room), s.buffer.drop room, s.rx)) ∨
    (s.buffer = [] ∧ ∃ data rx, s.rx = data :: rx ∧
      s.pollRead room = (.ready (data.take room), data.drop room, rx)) ∨
    (s.buffer = [] ∧ s.rx = [] ∧
      s.pollRead room = (if s.rxClosed then .ready [] else .pending, [], [])) := by
  unfold Stream.pollRead
  by_cases hbuffer : s.buffer = []
  · rw [if_neg (not_not.mpr hbuffer)]
    cases hrx : s.rx with
    | nil => exact .inr (.inr ⟨hbuffer, rfl, by cases s.rxClosed <;> rfl⟩)
    | cons data rx =>
      refine .inr (.inl ⟨hbuffer, data, rx, rfl, ?_⟩)
      dsimp only
      split_ifs with hdata
      · simp [hdata]
      · rfl
  · exact .inl ⟨hbuffer, if_pos hbuffer⟩

lemma incoming_step {act : Act} (h : s.bytesRead ++ s.buffer ++ s.rx.flatten = s.received)
    (hs : s.step act = some t) : t.bytesRead ++ t.buffer ++ t.rx.flatten = t.received := by
  cases act with
  | arrive data =>
    simp only [Stream.step] at hs
    split_ifs at hs
    cases hs
    simp [← h]
  | close | hangUp =>
    cases hs
    exact h
  | read room =>
    simp only [Stream.step] at hs
    rcases pollRead_cases s room with ⟨-, hread⟩ | ⟨hbuffer, data, rx, hrx, hread⟩ |
      ⟨hbuffer, hrx, hread⟩
    · rw [hread] at hs
      cases hs
      simp [← h]
    · rw [hread] at hs
      cases hs
      simp [← h, hbuffer, hrx]
    · rw [hread] at hs
      cases hclosed : s.rxClosed <;> rw [hclosed] at hs <;> cases hs
      · exact h
      · simp [← h, hbuffer, hrx]
  | write buf =>
    simp only [Stream.step] at hs
    split at hs <;> obtain rfl := Option.some.inj hs <;> exact h
  | drain =>
    simp only [Stream.step] at hs
    split at hs
    · cases hs
    · cases hs
      exact h

lemma faithful_step {act : Act} (h : Faithful s) (hs : s.step act = some t) :
    Faithful t ↔ Harmless s act := by
  have hin := incoming_step h.incoming hs
  have hout := h.written
  have hend := h.ended
  suffices (t.handed = t.reported ∧ t.endedEarly = false) ↔ Harmless s act by
    rw [← this]
    exact ⟨fun h' => ⟨h'.written, h'.ended⟩, fun h' => ⟨h'.1, hin, h'.2⟩⟩
  cases act with
  | arrive data =>
    simp only [Stream.step] at hs
    split_ifs at hs
    cases hs
    simp [Harmless, hout, hend]
  | close | hangUp =>
    cases hs
    simp [Harmless, hout, hend]
  | read room =>
    simp only [Stream.step] at hs
    rcases pollRead_cases s room with ⟨hbuffer, hread⟩ | ⟨hbuffer, data, rx, hrx, hread⟩ |
      ⟨hbuffer, hrx, hread⟩
    · rw [hread] at hs
      cases hs
      simp [Harmless, hout, hend, hbuffer]
      omega
    · rw [hread] at hs
      cases hs
      by_cases hdata : data = []
      · simp [Harmless, hout, hend, hbuffer, hrx, hdata]
      · simp [Harmless, hout, hend, hbuffer, hrx, hdata]
        omega
    · rw [hread] at hs
      cases hclosed : s.rxClosed <;> rw [hclosed] at hs <;> cases hs <;>
        simp [Harmless, hout, hend, hrx]
  | write buf =>
    simp only [Stream.step, Stream.pollWrite] at hs
    split_ifs at hs with hclosed hroom
    · cases hs
      simp [Harmless, hout, hend, hclosed]
    · cases hs
      simp [Harmless, hout, hend, hroom]
    · cases hs
      simp [Harmless, hout, hend, hroom, hclosed]
  | drain =>
    simp only [Stream.step] at hs
    split at hs
    · cases hs
    · cases hs
      simp [Harmless, hout, hend]

/-- **When the stream is faithful**, all the way: exactly if all its steps are harmless. -/
theorem stream_faithful_iff (capacity : ℕ) (acts : List Act) :
    Stays Stream.step Faithful { capacity } acts ↔
      Along Stream.step Harmless { capacity } acts := by
  refine stays_iff_along_of_invariant (J := fun _ => True) ?_ (fun _ _ => trivial)
    (fun _ h hs => faithful_step h hs) trivial ⟨rfl, rfl, rfl⟩
  intro s act hnone
  cases act with
  | arrive | close | drain | hangUp => trivial
  | read room | write buf =>
    simp only [Stream.step] at hnone
    split at hnone <;> cases hnone

/-- Two writes before the socket takes the first. -/
def twoWrites : List Act := [.write [1], .write [2]]

/-- The second byte is lost, though both writes report success. -/
theorem twoWrites_lost :
    (∃ t, run Stream.step { capacity := 1 } twoWrites = some t ∧ t.reported = [1, 2] ∧
      t.handed = [1]) ∧ ¬ Stays Stream.step Faithful { capacity := 1 } twoWrites := by
  refine ⟨⟨_, rfl, rfl, rfl⟩, fun h => ?_⟩
  exact absurd (h 2 _ rfl).written (by decide)

end Tokilake.Gateway.WsStream
