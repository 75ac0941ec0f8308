import Tokilake.Core.TunnelStream
import Tokilake.Lib.Calls

/-! # Concurrent writers of a codec

A writer encodes its message, takes the write lock, passes the line to one `Write` and gives the
lock back.  `encoding/json` is the pair `marshal`, `unmarshal` of a `Codec`.

* `readers_read`: both readers get the messages in the order of the writes. -/

namespace Tokilake.Core.Writers

open Lib.Lines Lib.Bytes Lib.Run Lib.Calls List
open Core.TunnelStream

abbrev Bytes := List UInt8

/-! ### Reading control messages -/

def readControl {τ : Type} (unmarshal : Bytes → Except String τ) (r : Reader UInt8 IOErr) :
    Except IOErr τ × Reader UInt8 IOErr :=
  match _ : readBytes newline r with
  | (.error (_, err), r') => (.error err, r')
  | (.ok line, r') =>
    if trimSpace line = [] then readControl unmarshal r'
    else match unmarshal (trimSpace line) with
      | .error err => (.error (.decode ("decode control message: " ++ err)), r')
      | .ok msg => (.ok msg, r')
termination_by r.pending.length
decreasing_by exact readBytes_lt ‹_›

/-! ### Writing -/

structure Codec (τ : Type) where
  marshal : τ → Except String Bytes
  unmarshal : Bytes → Except String τ
  object : ∀ m data, marshal m = .ok data → ∃ inner, data = 0x7b :: inner ++ [0x7d]
  oneLine : ∀ m data, marshal m = .ok data → newline ∉ data
  roundTrip : ∀ m data, marshal m = .ok data → unmarshal data = .ok m

inductive Phase
  | encoding
  | locking (data : Bytes)
  | writing (data : Bytes)
  | unlocking (ok : Bool)
  | returned (ok : Bool)
  deriving DecidableEq

structure Writer (τ : Type) where
  message : τ
  phase : Phase

/-- The bytes and the lock.  `order` is a history: who took the lock, with the message. -/
structure Stream (τ : Type) where
  bytes : Bytes := []
  owner : Option ℕ := none
  order : List (ℕ × τ × Bool) := []

variable {τ : Type}

def advance (C : Codec τ) (i : ℕ) (s : Stream τ) (w : Writer τ) (ok : Bool) :
    Option (Stream τ × Writer τ) :=
  match w.phase with
  | .encoding =>
    match C.marshal w.message with
    | .error _ => some (s, { w with phase := .returned false })
    | .ok data => some (s, { w with phase := .locking (data ++ [newline]) })
  | .locking data =>
    if s.owner = none then
      some ({ s with owner := some i, order := s.order ++ [(i, w.message, false)] },
        { w with phase := .writing data })
    else none
  | .writing data =>
    if ok then
      some ({ s with
          bytes := s.bytes ++ data, order := s.order.dropLast ++ [(i, w.message, true)] },
        { w with phase := .unlocking true })
    else some (s, { w with phase := .unlocking false })
  | .unlocking ok => some ({ s with owner := none }, { w with phase := .returned ok })
  | .returned _ => none

def env (s : Stream τ) (blank : Bytes) : Option (Stream τ) :=
  if newline ∉ blank ∧ trimSpace (blank ++ [newline]) = [] then
    some { s with bytes := s.bytes ++ (blank ++ [newline]) }
  else none

def writers (C : Codec τ) : System (Stream τ) (Writer τ) τ Bool Bytes :=
  ⟨fun m => ⟨m, .encoding⟩, advance C, env⟩

@[simp] def Stream.delivered (s : Stream τ) : List τ :=
  s.order.filterMap fun entry => if entry.2.2 then some entry.2.1 else none

/-! ### What is on the stream -/

def Carries (C : Codec τ) (bytes : Bytes) (ms : List τ) : Prop :=
  ∃ ls : List Bytes, (∀ l ∈ ls, IsLine newline l) ∧ bytes = ls.flatten ∧
    ((ls.map trimSpace).filter (· ≠ [])).map C.unmarshal = ms.map .ok

variable {C : Codec τ}

lemma Carries.append {bytes bytes' : Bytes} {ms ms' : List τ} (h : Carries C bytes ms)
    (h' : Carries C bytes' ms') : Carries C (bytes ++ bytes') (ms ++ ms') := by
  obtain ⟨ls, hls, rfl, hms⟩ := h
  obtain ⟨ls', hls', rfl, hms'⟩ := h'
  refine ⟨ls ++ ls', ?_, by simp, by simp only [map_append, filter_append, hms, hms']⟩
  simpa [or_imp, forall_and] using ⟨hls, hls'⟩

lemma carries_message {m : τ} {data : Bytes} (h : C.marshal m = .ok data) :
    Carries C (data ++ [newline]) [m] := by
  obtain ⟨inner, rfl⟩ := C.object m data h
  have htrim : trimSpace (0x7b :: inner ++ [0x7d] ++ [newline]) = 0x7b :: inner ++ [0x7d] := by
    rw [append_assoc]
    exact trimSpace_object inner
  refine ⟨[0x7b :: inner ++ [0x7d] ++ [newline]], ?_, by simp, ?_⟩
  · intro l hl
    rw [mem_singleton.mp hl]
    exact ⟨_, C.oneLine m _ h, rfl⟩
  · rw [map_singleton, htrim, filter_cons_of_pos (by simp), filter_nil,
      map_singleton, C.roundTrip m _ h]
    rfl

lemma carries_blank {blank : Bytes} (hline : newline ∉ blank)
    (h : trimSpace (blank ++ [newline]) = []) : Carries C (blank ++ [newline]) [] :=
  ⟨[blank ++ [newline]], by simpa using ⟨_, hline, rfl⟩, by simp, by simp [h]⟩

/-! ### The lock -/

def Encoded (C : Codec τ) (m : τ) (line : Bytes) : Prop :=
  ∃ data, C.marshal m = .ok data ∧ line = data ++ [newline]

def Assert (C : Codec τ) (i : ℕ) (s : Stream τ) (w : Writer τ) : Prop :=
  match w.phase with
  | .encoding => True
  | .locking line => Encoded C w.message line
  | .writing line => Encoded C w.message line ∧ s.owner = some i ∧
      ∃ before, s.order = before ++ [(i, w.message, false)]
  | .unlocking ok => s.owner = some i ∧ (ok = true → (i, w.message, true) ∈ s.order)
  | .returned ok => ok = true → (i, w.message, true) ∈ s.order

lemma assert_other {j : ℕ} {s s' : Stream τ} {d : Writer τ} (hd : Assert C j s d)
    (hfree : s.owner ≠ some j)
    (horder : ∀ m, (j, m, true) ∈ s.order → (j, m, true) ∈ s'.order) : Assert C j s' d := by
  unfold Assert at hd ⊢
  cases hphase : d.phase with
  | encoding => trivial
  | locking line =>
    rw [hphase] at hd
    exact hd
  | writing line =>
    rw [hphase] at hd
    exact absurd hd.2.1 hfree
  | unlocking ok =>
    rw [hphase] at hd
    exact absurd hd.1 hfree
  | returned ok =>
    rw [hphase] at hd
    exact fun hok => horder _ (hd hok)

lemma stable (C : Codec τ) :
    Stable (writers C) (fun s => Carries C s.bytes s.delivered) (Assert C) where
  start := fun _ _ => trivial
  own := by
    intro i s w ok s' w' hI hw h
    simp only [writers, advance] at h
    split at h
    · split at h <;> cases h
      · exact ⟨hI, nofun⟩
      · next data hdata => exact ⟨hI, data, hdata, rfl⟩
    · next line hphase =>
      simp only [Assert, hphase] at hw
      split_ifs at h
      cases h
      refine ⟨?_, hw, rfl, s.order, rfl⟩
      simpa using hI
    · next line hphase =>
      simp only [Assert, hphase] at hw
      obtain ⟨⟨data, hdata, rfl⟩, howner, before, horder⟩ := hw
      split_ifs at h
      · cases h
        refine ⟨?_, howner, fun _ => by simp⟩
        have hdelivered : s.delivered = before.filterMap fun entry =>
            if entry.2.2 then some entry.2.1 else none := by
          simp [horder]
        simpa [horder] using hI.append (carries_message hdata)
      · cases h
        exact ⟨hI, howner, nofun⟩
    · next ok' hphase =>
      simp only [Assert, hphase] at hw
      cases h
      exact ⟨hI, hw.2⟩
    · cases h
  other := by
    intro i j s w d ok s' w' hI hw hd hij h
    have hne : (some i : Option ℕ) ≠ some j := fun he => hij (Option.some.inj he)
    simp only [writers, advance] at h
    split at h
    · split at h <;> cases h <;> exact hd
    · split_ifs at h with hfree
      cases h
      exact assert_other hd (by rw [hfree]; nofun) fun m hm => mem_append_left _ hm
    · next line hphase =>
      simp only [Assert, hphase] at hw
      obtain ⟨-, howner, before, horder⟩ := hw
      split_ifs at h
      · cases h
        refine assert_other hd (howner ▸ hne) fun m hm => ?_
        simp_all
      · cases h
        exact hd
    · next ok' hphase =>
      simp only [Assert, hphase] at hw
      cases h
      exact assert_other hd (hw.1 ▸ hne) fun _ hm => hm
    · cases h
  env := by
    intro s blank s' hI h
    simp only [writers, env] at h
    split_ifs at h with hblank
    cases h
    refine ⟨?_, fun hd => hd⟩
    simpa using hI.append (carries_blank hblank.1 hblank.2)

/-! ### Each writer once -/

def Phase.entered : Phase → Bool
  | .encoding | .locking _ => false
  | .writing _ | .unlocking _ | .returned _ => true

structure Once (p : Pool (Stream τ) (Writer τ)) : Prop where
  nodup : (p.shared.order.map Prod.fst).Nodup
  entered : ∀ i ∈ p.shared.order.map Prod.fst, ∃ w, p.calls[i]? = some w ∧ w.phase.entered = true

lemma advance_order {i : ℕ} {s s' : Stream τ} {w w' : Writer τ} {ok : Bool} (hw : Assert C i s w)
    (h : advance C i s w ok = some (s', w')) : (s'.order.map Prod.fst = s.order.map Prod.fst ∧
      (w.phase.entered = true → w'.phase.entered = true)) ∨
    (w.phase.entered = false ∧ w'.phase.entered = true ∧
      s'.order.map Prod.fst = s.order.map Prod.fst ++ [i]) := by
  unfold advance at h
  split at h
  · next hphase => split at h <;> cases h <;> exact .inl ⟨rfl, by simp [hphase, Phase.entered]⟩
  · next hphase =>
    split_ifs at h
    cases h
    exact .inr ⟨by rw [hphase]; rfl, rfl, by simp⟩
  · next hphase =>
    simp only [Assert, hphase] at hw
    obtain ⟨-, -, before, horder⟩ := hw
    split_ifs at h <;> cases h
    · exact .inl ⟨by simp [horder], fun _ => rfl⟩
    · exact .inl ⟨rfl, fun _ => rfl⟩
  · cases h
    exact .inl ⟨rfl, fun _ => rfl⟩
  · cases h

lemma once_step {p q : Pool (Stream τ) (Writer τ)} {e : Event τ Bool Bytes}
    (hL : Each (Assert C) p) (h : Once p) (hs : (writers C).step p e = some q) : Once q := by
  cases e with
  | arrive m =>
    cases hs
    refine ⟨h.nodup, fun i hi => ?_⟩
    obtain ⟨w, hw, hentered⟩ := h.entered i hi
    exact ⟨w, by rw [List.getElem?_append_left (List.getElem?_eq_some_iff.mp hw).1, hw], hentered⟩
  | env blank =>
    obtain ⟨s, henv, rfl⟩ := step_env.mp hs
    simp only [writers, env] at henv
    split_ifs at henv
    cases henv
    exact ⟨h.nodup, h.entered⟩
  | move i ok =>
    obtain ⟨w, s, w', hw, hmove, rfl⟩ := step_move.mp hs
    have hself : (p.calls.set i w')[i]? = some w' :=
      List.getElem?_set_self (List.getElem?_eq_some_iff.mp hw).1
    have hkeeps : ∀ j ∈ p.shared.order.map Prod.fst, (j = i → w'.phase.entered = true) →
        ∃ d, (p.calls.set i w')[j]? = some d ∧ d.phase.entered = true := by
      intro j hj hown
      by_cases hji : j = i
      · exact ⟨w', hji ▸ hself, hown hji⟩
      · rw [getElem?_set_ne (Ne.symm hji)]
        exact h.entered j hj
    rcases advance_order (hL i w hw) hmove with ⟨horder, hmono⟩ | ⟨hnot, hin, horder⟩
    · refine ⟨horder ▸ h.nodup, fun j hj => hkeeps j (horder ▸ hj) fun hji => hmono ?_⟩
      obtain ⟨d, hd, hentered⟩ := h.entered j (horder ▸ hj)
      rw [hji, hw] at hd
      exact (Option.some.inj hd) ▸ hentered
    · -- the writer takes the lock, and did not have it before
      have hfresh : i ∉ p.shared.order.map Prod.fst := by
        intro hi
        obtain ⟨d, hd, hentered⟩ := h.entered i hi
        rw [hw] at hd
        cases hd
        rw [hnot] at hentered
        cases hentered
      refine ⟨horder ▸ nodup_append.mpr ⟨h.nodup, by simp, ?_⟩, fun j hj => ?_⟩
      · rintro a ha b hb rfl
        exact hfresh (mem_singleton.mp hb ▸ ha)
      · rw [horder, mem_append, mem_singleton] at hj
        rcases hj with hj | rfl
        · exact hkeeps j hj fun _ => hin
        · exact ⟨w', hself, hin⟩

def Written (C : Codec τ) (p : Pool (Stream τ) (Writer τ)) : Prop :=
  (Carries C p.shared.bytes p.shared.delivered ∧ Each (Assert C) p) ∧ Once p

lemma written_run {events : List (Event τ Bool Bytes)} {p : Pool (Stream τ) (Writer τ)}
    (h : run (writers C).step ⟨{}, []⟩ events = some p) : Written C p := by
  have hstart : Written C ⟨{}, []⟩ :=
    ⟨⟨⟨[], by simp, rfl, rfl⟩, by simp [Each]⟩, nodup_nil, by simp⟩
  exact run_invariant' (fun h hs => ⟨(stable C).step h.1 hs, once_step h.1.2 h.2 hs⟩) hstart h

/-! ### Reading -/

def readAll (read : Reader UInt8 IOErr → Except IOErr τ × Reader UInt8 IOErr) :
    ℕ → Reader UInt8 IOErr → List (Except IOErr τ)
  | 0, _ => []
  | n + 1, r => (read r).1 :: readAll read n (read r).2

variable {unmarshal : Bytes → Except String τ}

/-- What the two readers have in common: how they end, skip a blank line and return a message. -/
structure Reads (unmarshal : Bytes → Except String τ)
    (read : Reader UInt8 IOErr → Except IOErr τ × Reader UInt8 IOErr) : Prop where
  atEnd : ∀ {r r' left err}, readBytes newline r = (.error (left, err), r') →
    read r = (.error err, r')
  blank : ∀ {r r' line}, readBytes newline r = (.ok line, r') → trimSpace line = [] →
    read r = read r'
  message : ∀ {r r' line m}, readBytes newline r = (.ok line, r') → trimSpace line ≠ [] →
    unmarshal (trimSpace line) = .ok m → read r = (.ok m, r')

lemma reads_readControl : Reads unmarshal (readControl unmarshal) := by
  constructor
  · intro r r' left err h
    rw [readControl]
    split <;> next heq => rw [h] at heq; cases heq <;> rfl
  · intro r r' line h hblank
    rw [readControl]
    split <;> next heq => rw [h] at heq; cases heq <;> exact if_pos hblank
  · intro r r' line m h hne hm
    rw [readControl]
    split <;> next heq => rw [h] at heq; cases heq <;> rw [if_neg hne, hm]

lemma reads_readMessage : Reads unmarshal (readMessage unmarshal) := by
  constructor
  · intro r r' left err h
    rw [readMessage]
    split <;> next heq => rw [h] at heq; cases heq <;> rfl
  · intro r r' line h hblank
    rw [readMessage]
    split <;> next heq => rw [h] at heq; cases heq <;> exact if_pos hblank
  · intro r r' line m h hne hm
    rw [readMessage]
    split <;> next heq => rw [h] at heq; cases heq <;> rw [if_neg hne, hm]

lemma Reads.eq {read read' : Reader UInt8 IOErr → Except IOErr τ × Reader UInt8 IOErr}
    (h : Reads unmarshal read) (h' : Reads unmarshal read') {r : Reader UInt8 IOErr} {ms : List τ}
    (hms : messages unmarshal r = ms.map .ok) : read r = read' r := by
  induction hn : r.pending.length using Nat.strong_induction_on generalizing r with
  | _ n ih =>
    subst hn
    rcases readBytes_cases newline r with ⟨-, hread⟩ | ⟨line, r', hlines, hread, -, hlt⟩
    · rw [h.atEnd hread, h'.atEnd hread]
    by_cases hblank : trimSpace line = []
    · have hrest : messages unmarshal r' = ms.map .ok := by
        rw [← hms]
        simp [messages, hlines, hblank]
      rw [h.blank hread hblank, h'.blank hread hblank]
      exact ih _ hlt hrest rfl
    · have hfirst : unmarshal (trimSpace line) :: messages unmarshal r' = ms.map .ok := by
        rw [← hms]
        simp [messages, hlines, hblank]
      obtain ⟨m, ms', -, hm, -⟩ := map_eq_cons_iff.mp hfirst.symm
      rw [h.message hread hblank hm.symm, h'.message hread hblank hm.symm]

lemma readAll_messages {read : Reader UInt8 IOErr → Except IOErr τ × Reader UInt8 IOErr}
    (hread : Reads unmarshal read) {ms : List τ} {r : Reader UInt8 IOErr}
    (h : messages unmarshal r = ms.map .ok) :
    readAll read (ms.length + 1) r = ms.map .ok ++ [.error r.ending] := by
  induction ms generalizing r with
  | nil =>
    rcases readMessage_cases unmarshal r with ⟨-, hend⟩ | ⟨_, _, hm, -⟩ | ⟨_, _, hm, -⟩
    · rw [readAll, hread.eq reads_readMessage h, hend]
      rfl
    · rw [h] at hm
      cases hm
    · rw [h] at hm
      cases hm
  | cons m ms ih =>
    rcases readMessage_cases unmarshal r with ⟨hm, -⟩ | ⟨_, _, hm, -⟩ | ⟨m', r', hm, hr, hend, -⟩
    · rw [h] at hm
      cases hm
    · rw [h] at hm
      cases hm
    · rw [h, map_cons, cons.injEq] at hm
      obtain ⟨hm', hrest⟩ := hm
      cases hm'
      rw [length_cons, readAll, hread.eq reads_readMessage h, hr, ih hrest.symm, hend]
      rfl

/-- **Both readers return what was written**, in the order in which the writers took the lock. -/
theorem readers_read (C : Codec τ) {events : List (Event τ Bool Bytes)}
    {p : Pool (Stream τ) (Writer τ)} (hrun : run (writers C).step ⟨{}, []⟩ events = some p)
    {reads : List Bytes} (hreads : reads.flatten = p.shared.bytes) (ending : IOErr) :
    let ms := p.shared.delivered
    readAll (readMessage C.unmarshal) (ms.length + 1) ⟨[], reads, ending⟩ =
        ms.map .ok ++ [.error ending] ∧
      readAll (readControl C.unmarshal) (ms.length + 1) ⟨[], reads, ending⟩ =
        ms.map .ok ++ [.error ending] ∧ (p.shared.order.map Prod.fst).Nodup ∧
      ∀ i w, p.calls[i]? = some w → w.phase = .returned true →
        (i, w.message, true) ∈ p.shared.order := by
  obtain ⟨⟨⟨ls, hls, hbytes, hms⟩, hL⟩, honce⟩ := written_run hrun
  have hmessages : messages C.unmarshal ⟨[], reads, ending⟩ = p.shared.delivered.map .ok := by
    rw [messages, Reader.lines, Reader.pending, nil_append, hreads, hbytes, splitLines_flatten hls]
    exact hms
  refine ⟨readAll_messages reads_readMessage hmessages,
    readAll_messages reads_readControl hmessages, honce.nodup, fun i w hw hphase => ?_⟩
  have hassert := hL i w hw
  simp only [Assert, hphase] at hassert
  exact hassert trivial

/-- The messages `{}` and `{1}`. -/
def boolCodec : Codec Bool where
  marshal := fun b => .ok (if b then [0x7b, 0x31, 0x7d] else [0x7b, 0x7d])
  unmarshal := fun data => .ok (data ≠ [0x7b, 0x7d])
  object := by
    rintro (_ | _) data h <;> cases h
    · exact ⟨[], rfl⟩
    · exact ⟨[0x31], rfl⟩
  oneLine := by
    rintro (_ | _) data h <;> cases h <;> decide
  roundTrip := by
    rintro (_ | _) data h <;> cases h <;> rfl

/-- The first writer fails in its first attempt to write, and the others write in turn. -/
def threeWriters : List (Event Bool Bool Bytes) :=
  [.arrive false, .arrive true, .arrive false, .move 1 true, .move 0 true, .move 0 true,
    .move 0 false, .env [], .move 0 true, .move 1 true, .move 2 true, .move 1 true, .move 1 true,
    .move 2 true, .move 2 true, .move 2 true]

theorem readers_read_twoWriters :
    readAll (readControl boolCodec.unmarshal) 3
        ⟨[], [[0x0a, 0x7b], [0x31, 0x7d, 0x0a, 0x7b], [0x7d, 0x0a]], .eof⟩ =
      [.ok true, .ok false, .error .eof] := by
  have hrun : run (writers boolCodec).step ⟨{}, []⟩ threeWriters =
      some ⟨⟨[0x0a, 0x7b, 0x31, 0x7d, 0x0a, 0x7b, 0x7d, 0x0a], none,
          [(0, false, false), (1, true, true), (2, false, true)]⟩,
        [⟨false, .returned false⟩, ⟨true, .returned true⟩, ⟨false, .returned true⟩]⟩ := rfl
  exact (readers_read boolCodec hrun rfl .eof).2.1

end Tokilake.Core.Writers
