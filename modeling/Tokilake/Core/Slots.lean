import Tokilake.Lib.Calls
import Mathlib.Tactic.Linarith

/-! # Request slots of a gateway session

`TryAcquireRequest` takes a slot by a compare-and-swap loop on `activeRequests`, `ReleaseRequest`
gives it back, and the limit changes in between.  Every access is one step.

* `slots_exact`: the count is exact over all runs of careful steps. -/

namespace Tokilake.Core.Slots

open Lib.Run List

/-! ### The state -/

def int32 (n : ℤ) : ℤ := Int.bmod n (2 ^ 32)

/-- A slot counted in `activeRequests`, or none because the limit was not positive. -/
inductive Slot
  | counted
  | uncounted
  deriving DecidableEq

inductive Phase
  | entering
  | loading
  | comparing (current : ℤ)
  | swapping (current limit : ℤ)
  | opening (slot : Slot)
  | writing (slot : Slot)
  | reading (slot : Slot)
  | pumping (slot : Slot)
  | releasing (slot : Slot)
  | subtracting (slot : Slot)
  | ended
  deriving DecidableEq

@[simp] def Phase.slot : Phase → Option Slot
  | opening s | writing s | reading s | pumping s | releasing s | subtracting s => some s
  | _ => none

/-- The phases that are entered under a positive limit only. -/
@[simp] def Phase.limited : Phase → Bool
  | loading | comparing _ | swapping _ _ | subtracting _ => true
  | _ => false

structure State where
  limit : ℤ
  active : ℤ
  requests : List Phase

def init (limit : ℤ) : State := ⟨limit, 0, []⟩

def held (s : State) : ℕ := s.requests.countP fun p => p.slot = some .counted

def unfinished (s : State) : ℕ := s.requests.countP fun p => p.slot.isSome

/-! ### The steps -/

inductive FirstFrame
  | failed
  | error
  | header
  deriving DecidableEq

inductive Event
  | call
  | tryAcquire (i : ℕ)
  | load (i : ℕ)
  | compare (i : ℕ)
  | swap (i : ℕ)
  | openStream (i : ℕ) (ok : Bool)
  | writeRequest (i : ℕ) (ok : Bool)
  | readResponse (i : ℕ) (frame : FirstFrame)
  | pumpEnds (i : ℕ)
  | release (i : ℕ)
  | subtract (i : ℕ)
  | updateHeartbeat (limit : ℤ)
  | syncModels (limit : ℤ)

def advance (s : State) (i : ℕ) (next : Phase → Option (Phase × ℤ)) : Option State :=
  s.requests[i]?.bind fun p => (next p).map fun qa =>
    { s with active := qa.2, requests := s.requests.set i qa.1 }

def setLimit (s : State) (limit : ℤ) : State := if 0 < limit then { s with limit } else s

def step (s : State) : Event → Option State
  | .call => some { s with requests := s.requests ++ [.entering] }
  | .tryAcquire i => advance s i fun
    | .entering => some (if s.limit ≤ 0 then .opening .uncounted else .loading, s.active)
    | _ => none
  | .load i => advance s i fun
    | .loading => some (.comparing s.active, s.active)
    | _ => none
  | .compare i => advance s i fun
    | .comparing c => some (if int32 s.limit ≤ c then .ended else .swapping c s.limit, s.active)
    | _ => none
  | .swap i => advance s i fun
    | .swapping c _ =>
      some (if s.active = c then (.opening .counted, int32 (c + 1)) else (.loading, s.active))
    | _ => none
  | .openStream i ok => advance s i fun
    | .opening sl => some (if ok then .writing sl else .releasing sl, s.active)
    | _ => none
  | .writeRequest i ok => advance s i fun
    -- the failing branch closes the stream and untracks the request, but keeps the slot
    | .writing sl => some (if ok then .reading sl else .ended, s.active)
    | _ => none
  | .readResponse i frame => advance s i fun
    | .reading sl => some (if frame = .header then .pumping sl else .releasing sl, s.active)
    | _ => none
  | .pumpEnds i => advance s i fun
    | .pumping sl => some (.releasing sl, s.active)
    | _ => none
  | .release i => advance s i fun
    -- `ReleaseRequest` asks for the limit of now, not for the one the slot was taken under
    | .releasing sl => some (if 0 < s.limit then .subtracting sl else .ended, s.active)
    | _ => none
  | .subtract i => advance s i fun
    | .subtracting _ => some (.ended, int32 (s.active - 1))
    | _ => none
  | .updateHeartbeat limit => some (setLimit s limit)
  | .syncModels limit => some (setLimit s limit)

/-! ### What a step can do -/

/-- The moves of one call: its phase before and after, and the counter after. -/
inductive Trans (s : State) : Event → ℕ → Phase → Phase → ℤ → Prop
  | free (i) (h : s.limit ≤ 0) : Trans s (.tryAcquire i) i .entering (.opening .uncounted) s.active
  | enter (i) (h : 0 < s.limit) : Trans s (.tryAcquire i) i .entering .loading s.active
  | load (i) : Trans s (.load i) i .loading (.comparing s.active) s.active
  | refuse (i) (c : ℤ) : Trans s (.compare i) i (.comparing c) .ended s.active
  | pass (i) (c : ℤ) (h : c < int32 s.limit) :
      Trans s (.compare i) i (.comparing c) (.swapping c s.limit) s.active
  | take (i) (l : ℤ) :
      Trans s (.swap i) i (.swapping s.active l) (.opening .counted) (int32 (s.active + 1))
  | retry (i) (c l : ℤ) : Trans s (.swap i) i (.swapping c l) .loading s.active
  | opened (i) (sl : Slot) : Trans s (.openStream i true) i (.opening sl) (.writing sl) s.active
  | notOpened (i) (sl : Slot) :
      Trans s (.openStream i false) i (.opening sl) (.releasing sl) s.active
  | written (i) (sl : Slot) : Trans s (.writeRequest i true) i (.writing sl) (.reading sl) s.active
  | leak (i) (sl : Slot) : Trans s (.writeRequest i false) i (.writing sl) .ended s.active
  | header (i) (sl : Slot) :
      Trans s (.readResponse i .header) i (.reading sl) (.pumping sl) s.active
  | noHeader (i) (f : FirstFrame) (sl : Slot) :
      Trans s (.readResponse i f) i (.reading sl) (.releasing sl) s.active
  | pumped (i) (sl : Slot) : Trans s (.pumpEnds i) i (.pumping sl) (.releasing sl) s.active
  | test (i) (sl : Slot) (h : 0 < s.limit) :
      Trans s (.release i) i (.releasing sl) (.subtracting sl) s.active
  | skip (i) (sl : Slot) (h : s.limit ≤ 0) : Trans s (.release i) i (.releasing sl) .ended s.active
  | subtract (i) (sl : Slot) :
      Trans s (.subtract i) i (.subtracting sl) .ended (int32 (s.active - 1))

variable {s t : State}

lemma step_cases {e : Event} (h : step s e = some t) :
    (e = .call ∧ t = { s with requests := s.requests ++ [.entering] }) ∨
    (∃ i p q a, Trans s e i p q a ∧ s.requests[i]? = some p ∧
      t = { s with active := a, requests := s.requests.set i q }) ∨
    (∃ n, (e = .updateHeartbeat n ∨ e = .syncModels n) ∧ t = setLimit s n) := by
  -- the calls' own steps differ only in `next`
  have move : ∀ {i next}, advance s i next = some t →
      (∀ p q a, next p = some (q, a) → Trans s e i p q a) →
      ∃ i p q a, Trans s e i p q a ∧ s.requests[i]? = some p ∧
        t = { s with active := a, requests := s.requests.set i q } := by
    intro i next h hn
    simp only [advance, Option.bind_eq_some_iff, Option.map_eq_some_iff] at h
    obtain ⟨p, hp, ⟨q, a⟩, hq, rfl⟩ := h
    exact ⟨i, p, q, a, hn p q a hq, hp, rfl⟩
  cases e
  case call => left; exact ⟨rfl, by simpa [step] using h.symm⟩
  case updateHeartbeat n => right; right; exact ⟨n, Or.inl rfl, by simpa [step] using h.symm⟩
  case syncModels n => right; right; exact ⟨n, Or.inr rfl, by simpa [step] using h.symm⟩
  all_goals
    refine Or.inr (Or.inl (move h fun p q a hq => ?_))
    split at hq
    on_goal 2 => cases hq
  · split_ifs at hq with hl <;> cases hq
    · exact .free _ hl
    · exact .enter _ (not_le.mp hl)
  · cases hq; exact .load _
  · split_ifs at hq with hl <;> cases hq
    · exact .refuse _ _
    · exact .pass _ _ (not_le.mp hl)
  · split_ifs at hq with hl <;> cases hq
    · subst hl; exact .take _ _
    · exact .retry _ _ _
  · next _ ok _ _ =>
    cases ok <;> cases hq
    · exact .notOpened _ _
    · exact .opened _ _
  · next _ ok _ _ =>
    cases ok <;> cases hq
    · exact .leak _ _
    · exact .written _ _
  · split_ifs at hq with hf <;> cases hq
    · subst hf; exact .header _ _
    · exact .noHeader _ _ _
  · cases hq; exact .pumped _ _
  · split_ifs at hq with hl <;> cases hq
    · exact .test _ _ hl
    · exact .skip _ _ (not_lt.mp hl)
  · cases hq; exact .subtract _ _

/-! ### Careful runs -/

def Careful (s : State) : Event → Prop
  | .writeRequest i false => s.requests[i]? ≠ some (.writing .counted)
  | .updateHeartbeat n | .syncModels n =>
    0 < n → s.limit ≤ 0 → ∀ p ∈ s.requests, p.slot ≠ some .uncounted
  | _ => True

instance (s : State) : (e : Event) → Decidable (Careful s e)
  | .writeRequest i false => inferInstanceAs (Decidable (s.requests[i]? ≠ some (.writing .counted)))
  | .updateHeartbeat n | .syncModels n =>
    inferInstanceAs (Decidable (0 < n → s.limit ≤ 0 → ∀ p ∈ s.requests, p.slot ≠ some .uncounted))
  | .writeRequest _ true | .call | .tryAcquire _ | .load _ | .compare _ | .swap _ | .openStream _ _
  | .readResponse _ _ | .pumpEnds _ | .release _ | .subtract _ => isTrue trivial

structure Inv (s : State) : Prop where
  exact : s.active = held s
  lt : s.active < 2 ^ 31
  positive : ∀ p ∈ s.requests, p.limited = true ∨ p.slot = some .counted → 0 < s.limit
  unmixed : 0 < s.limit → ∀ p ∈ s.requests, p.slot ≠ some .uncounted
  checked : ∀ c l, .swapping c l ∈ s.requests → 0 < l ∧ c < l ∧ c + 1 < 2 ^ 31

lemma int32_spec (n : ℤ) : int32 n < 2 ^ 31 ∧ (0 < n → int32 n ≤ n) ∧
    (-2 ^ 31 ≤ n → n < 2 ^ 31 → int32 n = n) := by
  simp only [int32, Int.bmod]
  omega

lemma held_set {i : ℕ} {p q : Phase} {a : ℤ} (h : s.requests[i]? = some p) :
    (held { s with active := a, requests := s.requests.set i q } : ℤ) =
      held s + (if q.slot = some .counted then 1 else 0) -
        (if p.slot = some .counted then 1 else 0) := by
  have hcount := Lib.Calls.countP_set (fun p => decide (p.slot = some Slot.counted)) h q
  simp only [held]
  by_cases hp : p.slot = some .counted <;> by_cases hq : q.slot = some .counted <;>
    simp only [hp, hq, decide_true, decide_false, Bool.toNat_true, Bool.toNat_false, if_true,
      if_false] at hcount ⊢ <;> omega

lemma inv_init (limit : ℤ) : Inv (init limit) where
  exact := rfl
  lt := by norm_num [init]
  positive := by simp [init]
  unmixed := by simp [init]
  checked := by simp [init]

lemma inv_call (hI : Inv s) : Inv { s with requests := s.requests ++ [.entering] } where
  exact := by rw [hI.exact]; simp [held]
  lt := hI.lt
  positive p hp h := by
    rcases mem_append.mp hp with hp | hp
    · exact hI.positive p hp h
    · obtain rfl := mem_singleton.mp hp
      simp at h
  unmixed hl p hp := by
    rcases mem_append.mp hp with hp | hp
    · exact hI.unmixed hl p hp
    · obtain rfl := mem_singleton.mp hp
      simp
  checked c l hp := by
    rcases mem_append.mp hp with hp | hp
    · exact hI.checked c l hp
    · simp at hp

lemma inv_setLimit {n : ℤ} (hI : Inv s)
    (hn : 0 < n → s.limit ≤ 0 → ∀ p ∈ s.requests, p.slot ≠ some .uncounted) :
    Inv (setLimit s n) := by
  unfold setLimit
  split_ifs with h0
  · refine ⟨hI.exact, hI.lt, fun _ _ _ => h0, fun _ p hp => ?_, hI.checked⟩
    rcases le_or_gt s.limit 0 with hl | hl
    · exact hn h0 hl p hp
    · exact hI.unmixed hl p hp
  · exact hI

structure Fits (s : State) (p q : Phase) (a : ℤ) : Prop where
  exact : a = held s + (if q.slot = some .counted then 1 else 0) -
    (if p.slot = some .counted then 1 else 0)
  lt : a < 2 ^ 31
  positive : q.limited = true ∨ q.slot = some .counted → 0 < s.limit
  unmixed : 0 < s.limit → q.slot ≠ some .uncounted
  checked : ∀ c l, q = .swapping c l → 0 < l ∧ c < l ∧ c + 1 < 2 ^ 31

lemma fits_keep {p q : Phase} (hI : Inv s) (hp : p ∈ s.requests) {sl : Slot}
    (h1 : p.slot = some sl) (h2 : q.slot = some sl) (h3 : q.limited = false) :
    Fits s p q s.active := by
  refine ⟨by rw [h1, h2]; have := hI.exact; omega, hI.lt, fun h => hI.positive p hp ?_, fun h => ?_,
    ?_⟩
  · rw [h3, h2] at h; rw [h1]; exact Or.inr (h.resolve_left (by simp))
  · rw [h2, ← h1]; exact hI.unmixed h p hp
  · rintro c l rfl; simp at h3

lemma fits_trans {e : Event} {i : ℕ} {p q : Phase} {a : ℤ} (hI : Inv s) (hc : Careful s e)
    (ht : Trans s e i p q a) (hp : s.requests[i]? = some p) : Fits s p q a := by
  have hpm := mem_of_getElem? hp
  have hpos := hI.positive p hpm
  have hun := fun h => hI.unmixed h p hpm
  have hexact := hI.exact
  have hlt := hI.lt
  have h32 := int32_spec s.limit
  cases ht with
  | free _ h | enter _ h | refuse _ c => constructor <;> simp <;> omega
  | load _ | pass _ c h | retry _ c l => constructor <;> simp at hpos ⊢ <;> omega
  | take _ l =>
    obtain ⟨hl, hcl, hc31⟩ := hI.checked _ _ hpm
    have := int32_spec (s.active + 1)
    constructor <;> simp at hpos ⊢ <;> omega
  | opened _ sl | notOpened _ sl | written _ sl | header _ sl | noHeader _ f sl | pumped _ sl =>
    exact fits_keep hI hpm rfl rfl rfl
  | leak _ sl =>
    have : sl ≠ .counted := by rintro rfl; exact hc hp
    constructor <;> simp [this] <;> omega
  | test _ sl h => exact ⟨by simp [hexact], hlt, fun _ => h, hun, by simp⟩
  | skip _ sl h =>
    have : sl ≠ .counted := fun h' => by have := hpos (Or.inr (by rw [h']; rfl)); omega
    constructor <;> simp [this] <;> omega
  | subtract _ sl =>
    -- past the test the limit is positive, so the slot is one that was counted
    have hl : 0 < s.limit := hpos (Or.inl rfl)
    obtain rfl : sl = .counted := by
      cases sl
      · rfl
      · exact absurd rfl (hun hl)
    have := int32_spec (s.active - 1)
    constructor <;> simp <;> omega

lemma inv_of_fits {i : ℕ} {p q : Phase} {a : ℤ} (hI : Inv s) (hf : Fits s p q a)
    (hp : s.requests[i]? = some p) :
    Inv { s with active := a, requests := s.requests.set i q } := by
  refine ⟨by rw [held_set hp]; exact hf.exact, hf.lt, fun p' hp' h => ?_, fun hl p' hp' => ?_,
    fun c l hp' => ?_⟩
  · rcases mem_or_eq_of_mem_set hp' with hp' | rfl
    · exact hI.positive p' hp' h
    · exact hf.positive h
  · rcases mem_or_eq_of_mem_set hp' with hp' | rfl
    · exact hI.unmixed hl p' hp'
    · exact hf.unmixed hl
  · rcases mem_or_eq_of_mem_set hp' with hp' | h
    · exact hI.checked c l hp'
    · exact hf.checked c l h.symm

lemma inv_step {e : Event} (hI : Inv s) (hc : Careful s e) (h : step s e = some t) : Inv t := by
  rcases step_cases h with ⟨-, rfl⟩ | ⟨i, p, q, a, ht, hp, rfl⟩ | ⟨n, he, rfl⟩
  · exact inv_call hI
  · exact inv_of_fits hI (fits_trans hI hc ht hp) hp
  · refine inv_setLimit hI ?_
    rcases he with rfl | rfl <;> exact hc

/-! ### The counter and the admissions -/

/-- The counter is the number of counted slots held, and is not negative. -/
def Exact (s : State) : Prop :=
  s.active = held s ∧ 0 ≤ s.active ∧ ((∀ p ∈ s.requests, p = .ended) → s.active = 0)

instance (s : State) : Decidable (Exact s) := by unfold Exact; infer_instance

/-- A step that admits call `i` keeps the admitted calls within the limit it was compared with. -/
def AdmitsWithin (s : State) (e : Event) (t : State) : Prop :=
  ∀ i current limit, e = .swap i → s.requests[i]? = some (.swapping current limit) →
    t.requests[i]? = some (.opening .counted) → 0 < limit ∧ (unfinished t : ℤ) ≤ limit

lemma Inv.toExact (hI : Inv s) : Exact s := by
  have hexact := hI.exact
  refine ⟨hexact, by omega, fun h => ?_⟩
  have : held s = 0 := countP_eq_zero.mpr fun p hp => by rw [h p hp]; simp
  omega

lemma Inv.unfinished_eq_held (hI : Inv s) (hl : 0 < s.limit) : unfinished s = held s := by
  refine countP_congr fun p hp => ?_
  have := hI.unmixed hl p hp
  rcases h : p.slot with _ | sl
  · simp
  · cases sl
    · simp
    · exact absurd h this

lemma Inv.admitsWithin {e : Event} (hI : Inv s) (h : step s e = some t) : AdmitsWithin s e t := by
  rintro i current limit rfl hp hq
  have hIt := inv_step (e := .swap i) hI trivial h
  rcases step_cases h with ⟨he, -⟩ | ⟨i', p, q, a, ht, hp', rfl⟩ | ⟨n, he, -⟩
  · cases he
  · cases ht with
    | take _ l =>
      obtain rfl : l = limit := by rw [hp] at hp'; cases hp'; rfl
      have hpm := mem_of_getElem? hp'
      obtain ⟨hl, hcl, hc31⟩ := hI.checked _ _ hpm
      have hpos : 0 < s.limit := hI.positive _ hpm (Or.inl rfl)
      have hun := hIt.unfinished_eq_held hpos
      have hexact : int32 (s.active + 1) = _ := hIt.exact
      have := int32_spec (s.active + 1)
      have := hI.toExact.2.1
      exact ⟨hl, by omega⟩
    | retry _ c l =>
      obtain ⟨hi, -⟩ := List.getElem?_eq_some_iff.mp hp'
      simp [hi] at hq
  · rcases he with he | he <;> cases he

/-- **The slots of a session**: the counter is exact, and admissions respect the limit. -/
theorem slots_exact (limit : ℤ) (events : List Event) (s : State)
    (hc : Along step Careful (init limit) events) (h : run step (init limit) events = some s) :
    Exact s ∧ ∀ e t, step s e = some t → AdmitsWithin s e t := by
  have hI : Inv s := run_invariant (fun hI hc hs => inv_step hI hc hs) (inv_init limit) hc h
  exact ⟨hI.toExact, fun e t hs => hI.admitsWithin hs⟩

def admitted : List Event :=
  [.call, .tryAcquire 0, .load 0, .compare 0, .swap 0, .openStream 0 true]

/-- A call that runs to the end of its body while the limit is raised and lowered again. -/
theorem slots_exact_pumped : Exact ⟨1, 0, [.ended]⟩ ∧ ∀ e t, step ⟨1, 0, [.ended]⟩ e = some t →
      AdmitsWithin ⟨1, 0, [.ended]⟩ e t :=
  slots_exact 1 (admitted ++ [.updateHeartbeat 4, .writeRequest 0 true, .readResponse 0 .header,
    .syncModels 1, .pumpEnds 0, .release 0, .subtract 0]) _ (by decide) (by rfl)

/-- **A lost slot**: a call fails in `WriteRequest`, and the next one is refused. -/
theorem slots_leak :
    ∃ s, run step (init 1) (admitted ++ [.writeRequest 0 false]) = some s ∧ ¬ Exact s ∧
      (∀ p ∈ s.requests, p = .ended) ∧ s.active = 1 ∧
      run step s [.call, .tryAcquire 1, .load 1, .compare 1] = some ⟨1, 1, [.ended, .ended]⟩ :=
  ⟨⟨1, 1, [.ended]⟩, by rfl, by decide, by decide, by rfl, by rfl⟩

end Tokilake.Core.Slots
