import Mathlib.Data.List.Basic
import Mathlib.Data.PNat.Notation

/-! # A byte stream over websocket messages

`read` goes on with the message it is in, or takes the next binary one.  A message's reader cuts its
payload as it likes, and its end may come with the last bytes or after them.

* `reads_deliver`: the binary payloads, in order and in full. -/

namespace Tokilake.Core.WsConn

open List

def binaryMessage : ℕ := 2

inductive Ending (ε : Type) where
  | eof
  | failed (err : ε)

/-- The reads a message has left; an empty one returns no byte and no error. -/
structure MessageReader (ε : Type) where
  chunks : List (List UInt8)
  eager : Bool
  ending : Ending ε

variable {ε : Type}

namespace MessageReader

def payload (r : MessageReader ε) : List UInt8 := r.chunks.flatten

def read (size : ℕ) (r : MessageReader ε) : List UInt8 × Option (Ending ε) × MessageReader ε :=
  match r.chunks with
  | [] => ([], some r.ending, r)
  | chunk :: chunks =>
    if size < chunk.length then
      (chunk.take size, none, { r with chunks := chunk.drop size :: chunks })
    else if chunks = [] ∧ r.eager then (chunk, some r.ending, { r with chunks := [] })
    else (chunk, none, { r with chunks })

def weight (r : MessageReader ε) : ℕ := r.payload.length + r.chunks.length

end MessageReader

abbrev Message (ε : Type) := ℕ × MessageReader ε

/-- `connErr` is what `NextReader` returns once there is no message left. -/
structure Conn (ε : Type) where
  currentReader : Option (MessageReader ε)
  messages : List (Message ε)
  connErr : ε

def read (size : ℕ) (c : Conn ε) : (List UInt8 × Option ε) × Conn ε :=
  match c with
  | ⟨none, [], connErr⟩ => (([], some connErr), ⟨none, [], connErr⟩)
  | ⟨none, (messageType, reader) :: messages, connErr⟩ =>
    if messageType ≠ binaryMessage then read size ⟨none, messages, connErr⟩
    else read size ⟨some reader, messages, connErr⟩
  | ⟨some reader, messages, connErr⟩ =>
    match reader.read size with
    | ([], some .eof, _) => read size ⟨none, messages, connErr⟩
    | (bs, some .eof, _) => ((bs, none), ⟨none, messages, connErr⟩)
    | (bs, some (.failed err), reader) => ((bs, some err), ⟨some reader, messages, connErr⟩)
    | (bs, none, reader) => ((bs, none), ⟨some reader, messages, connErr⟩)
termination_by 2 * c.messages.length + c.currentReader.toList.length

def reads : List ℕ+ → Conn ε → List (List UInt8 × Option ε)
  | [], _ => []
  | size :: sizes, c => (read size c).1 :: reads sizes (read size c).2

def received (sizes : List ℕ+) (c : Conn ε) : List UInt8 := ((reads sizes c).map Prod.fst).flatten

/-! ### What is to be delivered -/

/-- The payloads of the binary messages, up to a message that breaks off, and the error after them.
-/
def delivered (connErr : ε) : List (Message ε) → List UInt8 × ε
  | [] => ([], connErr)
  | (messageType, reader) :: messages =>
    if messageType ≠ binaryMessage then delivered connErr messages
    else match reader.ending with
      | .failed err => (reader.payload, err)
      | .eof => (reader.payload ++ (delivered connErr messages).1, (delivered connErr messages).2)

namespace Conn

/-- The message that is being read is the first of the queue. -/
def queue (c : Conn ε) : List (Message ε) :=
  c.currentReader.toList.map (binaryMessage, ·) ++ c.messages

def pending (c : Conn ε) : List UInt8 × ε := delivered c.connErr c.queue

def weight (c : Conn ε) : ℕ := c.queue.foldr (fun m n => m.2.weight + n) 0

end Conn

lemma MessageReader.read_none {size : ℕ} {r r' : MessageReader ε} {bs : List UInt8}
    (h : r.read size = (bs, none, r')) :
    r.payload = bs ++ r'.payload ∧ r'.ending = r.ending ∧ (0 < size → r'.weight < r.weight) := by
  obtain ⟨_ | ⟨chunk, chunks⟩, eager, ending⟩ := r
  · cases h
  · simp only [read] at h
    split_ifs at h with hsize hlast <;> cases h
    · simp [payload, weight, ← append_assoc]
      omega
    · simp [payload, weight]
      omega

lemma MessageReader.read_some {size : ℕ} {r r' : MessageReader ε} {bs : List UInt8}
    {ending : Ending ε} (h : r.read size = (bs, some ending, r')) :
    r.payload = bs ∧ r.ending = ending ∧ r'.payload = [] ∧ r'.ending = ending := by
  obtain ⟨_ | ⟨chunk, chunks⟩, eager, ending⟩ := r
  · cases h
    exact ⟨rfl, rfl, rfl, rfl⟩
  · simp only [read] at h
    split_ifs at h with hsize hlast <;> cases h
    simp [payload, hlast.1]

section
variable {r : MessageReader ε} {messages : List (Message ε)} {connErr : ε}

lemma pending_eof (h : r.ending = .eof) : (Conn.mk (some r) messages connErr).pending =
      (r.payload ++ (delivered connErr messages).1, (delivered connErr messages).2) := by
  simp [Conn.pending, Conn.queue, delivered, h]

lemma pending_failed {err : ε} (h : r.ending = .failed err) :
    (Conn.mk (some r) messages connErr).pending = (r.payload, err) := by
  simp [Conn.pending, Conn.queue, delivered, h]

end

/-- A `Read` in the state `c` may end with `x`: its bytes are the next ones, an error comes after
the last byte, and there is progress. -/
structure Delivers (size : ℕ) (c : Conn ε) (x : (List UInt8 × Option ε) × Conn ε) : Prop where
  bytes : c.pending = (x.1.1 ++ x.2.pending.1, x.2.pending.2)
  err : ∀ err, x.1.2 = some err → err = c.pending.2 ∧ x.2.pending.1 = []
  progress : x.1.2 = none → 0 < size → x.2.weight < c.weight
  empty : x.1 = ([], none) → ∃ m ∈ c.queue, (m.2.read size).1 = [] ∧ (m.2.read size).2.1 = none

lemma Delivers.skip {size : ℕ} {c c' : Conn ε} {x : (List UInt8 × Option ε) × Conn ε}
    (h : Delivers size c' x) (hp : c.pending = c'.pending) (hw : c'.weight ≤ c.weight)
    (hq : c'.queue ⊆ c.queue) : Delivers size c x where
  bytes := hp.trans h.bytes
  err := by rw [hp]; exact h.err
  progress he hs := Nat.lt_of_lt_of_le (h.progress he hs) hw
  empty he := let ⟨m, hm, hr⟩ := h.empty he; ⟨m, hq hm, hr⟩

lemma delivers_read (size : ℕ) (c : Conn ε) : Delivers size c (read size c) := by
  fun_induction read size c with
  | case1 connErr => exact ⟨rfl, by rintro _ ⟨⟩; exact ⟨rfl, rfl⟩, nofun, nofun⟩
  | case2 messageType reader messages connErr ht ih =>
    -- a message that is not binary is passed over
    refine ih.skip ?_ ?_ (subset_cons_self ..)
    · simp [Conn.pending, Conn.queue, delivered, ht]
    · simp [Conn.weight, Conn.queue]
  | case3 messageType reader messages connErr ht ih =>
    obtain rfl := not_not.mp ht
    exact ih.skip rfl (Nat.le_refl _) (Subset.refl _)
  | case4 reader messages connErr _ hr ih =>
    -- an empty message, or one whose bytes have all been read
    obtain ⟨hb, he, -⟩ := MessageReader.read_some hr
    refine ih.skip ?_ ?_ (subset_cons_self ..)
    · rw [pending_eof he, hb]
      rfl
    · simp [Conn.weight, Conn.queue]
  | case5 reader messages connErr bs _ hne hr =>
    obtain ⟨hb, he, -⟩ := MessageReader.read_some hr
    refine ⟨?_, nofun, fun _ _ => ?_, ?_⟩
    · rw [pending_eof he, hb]
      rfl
    · have : 0 < reader.payload.length := by rw [hb]; exact length_pos_iff.mpr hne
      simp [Conn.weight, Conn.queue, MessageReader.weight]
      omega
    · rintro ⟨⟩
      exact (hne rfl).elim
  | case6 reader messages connErr bs err reader' hr =>
    obtain ⟨hb, he, hb', he'⟩ := MessageReader.read_some hr
    refine ⟨?_, ?_, nofun, nofun⟩
    · rw [pending_failed he, pending_failed he', hb, hb', append_nil]
    · rintro _ ⟨⟩
      rw [pending_failed he, pending_failed he', hb']
      exact ⟨rfl, rfl⟩
  | case7 reader messages connErr bs reader' hr =>
    obtain ⟨hb, he, hw⟩ := MessageReader.read_none hr
    refine ⟨?_, nofun, fun _ hs => ?_, ?_⟩
    · rcases hend : reader.ending with _ | err
      · rw [pending_eof hend, pending_eof (he.trans hend), hb, append_assoc]
      · rw [pending_failed hend, pending_failed (he.trans hend), hb]
    · simpa [Conn.weight, Conn.queue] using hw hs
    · rintro ⟨⟩
      exact ⟨_, mem_cons_self, by rw [hr], by rw [hr]⟩

lemma received_cons (size : ℕ+) (sizes : List ℕ+) (c : Conn ε) :
    received (size :: sizes) c = (read size c).1.1 ++ received sizes (read size c).2 := rfl

lemma received_pending : ∀ (sizes : List ℕ+) (c : Conn ε), received sizes c <+: c.pending.1 ∧
    ∀ x ∈ reads sizes c, ∀ err, x.2 = some err → err = c.pending.2 ∧ received sizes c = c.pending.1
  | [], c => ⟨ nil_prefix, nofun⟩
  | size :: sizes, c => by
    have h := delivers_read size c
    obtain ⟨hp, herr⟩ := received_pending sizes (read size c).2
    rw [received_cons]
    constructor
    · rw [h.bytes]
      exact (prefix_append_right_inj _).mpr hp
    rintro x (_ | ⟨_, hx⟩) err hxe
    · -- nothing is left after the error
      obtain ⟨he, hnil⟩ := h.err err hxe
      rw [hnil, prefix_nil] at hp
      refine ⟨he, ?_⟩
      rw [h.bytes, hnil, hp]
    · obtain ⟨he, hall⟩ := herr x hx err hxe
      rw [h.bytes, hall]
      exact ⟨he, rfl⟩

lemma exists_err_of_weight_lt : ∀ (sizes : List ℕ+) (c : Conn ε), c.weight < sizes.length →
    ∃ x ∈ reads sizes c, ∃ err, x.2 = some err
  | [], _, h => absurd h (Nat.not_lt_zero _)
  | size :: sizes, c, h => by
    rcases he : (read size c).1.2 with _ | err
    · have hw := (delivers_read size c).progress he size.2
      obtain ⟨x, hx, hxe⟩ := exists_err_of_weight_lt sizes (read size c).2
        (by rw [length_cons] at h; omega)
      exact ⟨x, mem_cons_of_mem _ hx, hxe⟩
    · exact ⟨_, mem_cons_self, err, he⟩

/-- **The stream is the binary payloads in order**, in full before any error and after enough reads;
a read without a byte and without an error is one of a message's reader. -/
theorem reads_deliver (messages : List (Message ε)) (connErr : ε) :
    (∀ sizes, received sizes ⟨none, messages, connErr⟩ <+: (delivered connErr messages).1 ∧
      ∀ x ∈ reads sizes ⟨none, messages, connErr⟩, x.2 ≠ none →
        received sizes ⟨none, messages, connErr⟩ = (delivered connErr messages).1) ∧
    (∃ enough, ∀ sizes, enough < sizes.length →
      received sizes ⟨none, messages, connErr⟩ = (delivered connErr messages).1 ∧
      ∃ x ∈ reads sizes ⟨none, messages, connErr⟩, x.2 = some (delivered connErr messages).2) ∧
    ∀ (size : ℕ) (c : Conn ε), (read size c).1 = ([], none) →
      ∃ m ∈ c.queue, (m.2.read size).1 = [] ∧ (m.2.read size).2.1 = none := by
  refine ⟨fun sizes => ?_, ⟨(Conn.mk none messages connErr).weight, fun sizes hs => ?_⟩,
    fun size c => (delivers_read size c).empty⟩
  · obtain ⟨hp, herr⟩ := received_pending sizes ⟨none, messages, connErr⟩
    refine ⟨hp, fun x hx hne => ?_⟩
    obtain ⟨err, he⟩ := Option.ne_none_iff_exists'.mp hne
    exact (herr x hx err he).2
  · obtain ⟨x, hx, err, he⟩ := exists_err_of_weight_lt sizes _ hs
    obtain ⟨rfl, hall⟩ := (received_pending sizes _).2 x hx err he
    exact ⟨hall, x, hx, he⟩

end Tokilake.Core.WsConn
