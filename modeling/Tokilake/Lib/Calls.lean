import Tokilake.Lib.Run
import Mathlib.Algebra.Group.Basic
import Mathlib.Algebra.Group.Nat.Defs

/-! # Concurrent calls on a shared state

Call `i` takes one atomic step at a time (`advance`) on a shared state, which the surroundings may
change too (`env`).

* `step_move`, `step_env`: the steps of the pool;
* `forall_set_iff`, `total_set`, `Stable.step`: what a step of one call does to all. -/

namespace Tokilake.Lib.Calls

open List

variable {σ τ κ α ε : Type*}

/-- The shared state, and where each of the calls made so far stands. -/
structure Pool (σ τ : Type*) where
  shared : σ
  calls : List τ

inductive Event (κ α ε : Type*)
  | arrive (k : κ)
  | move (i : ℕ) (a : α)
  | env (e : ε)
  deriving DecidableEq

/-- A value with the number of the call that holds its lock. -/
structure Locked (ρ : Type*) where
  value : ρ
  owner : Option ℕ := none
  deriving DecidableEq

/-- Where a call with arguments `k` starts, the steps of call `i`, and those of the surroundings. -/
structure System (σ τ κ α ε : Type*) where
  start : κ → τ
  advance : ℕ → σ → τ → α → Option (σ × τ)
  env : σ → ε → Option σ

def System.step (S : System σ τ κ α ε) (p : Pool σ τ) : Event κ α ε → Option (Pool σ τ)
  | .arrive k => some { p with calls := p.calls ++ [S.start k] }
  | .move i a => p.calls[i]?.bind fun c =>
      (S.advance i p.shared c a).map fun r => ⟨r.1, p.calls.set i r.2⟩
  | .env e => (S.env p.shared e).map fun s => { p with shared := s }

variable {S : System σ τ κ α ε} {p q : Pool σ τ} {i : ℕ}

lemma step_move {a : α} : S.step p (.move i a) = some q ↔ ∃ c s c', p.calls[i]? = some c ∧
    S.advance i p.shared c a = some (s, c') ∧ q = ⟨s, p.calls.set i c'⟩ := by
  simp only [System.step, Option.bind_eq_some_iff, Option.map_eq_some_iff, Prod.exists]
  constructor
  · rintro ⟨c, hc, s, c', h, rfl⟩
    exact ⟨c, s, c', hc, h, rfl⟩
  · rintro ⟨c, s, c', hc, h, rfl⟩
    exact ⟨c, hc, s, c', h, rfl⟩

lemma step_env {e : ε} : S.step p (.env e) = some q ↔
    ∃ s, S.env p.shared e = some s ∧ q = { p with shared := s } := by
  simp only [System.step, Option.map_eq_some_iff]
  exact exists_congr fun s => and_congr_right fun _ => eq_comm

/-! ### All calls after a step of one -/

lemma forall_set_iff {P : ℕ → τ → Prop} {l : List τ} {c : τ} (h : l[i]? = some c) (c' : τ) :
    (∀ j d, (l.set i c')[j]? = some d → P j d) ↔ P i c' ∧ ∀ j d, j ≠ i →
      l[j]? = some d → P j d := by
  have hi := (List.getElem?_eq_some_iff.mp h).1
  constructor
  · intro hall
    refine ⟨hall i c' (List.getElem?_set_self hi), fun j d hj hd => hall j d ?_⟩
    rw [getElem?_set_ne hj.symm, hd]
  · rintro ⟨hown, hother⟩ j d hd
    by_cases hj : j = i
    · subst hj
      rw [getElem?_set_self hi] at hd
      cases hd
      exact hown
    · rw [getElem?_set_ne (Ne.symm hj)] at hd
      exact hother j d hj hd

lemma forall_mem_set_iff {P : τ → Prop} {l : List τ} {c : τ} (h : l[i]? = some c) (c' : τ) :
    (∀ d ∈ l.set i c', P d) ↔ P c' ∧ ∀ j d, j ≠ i → l[j]? = some d → P d := by
  simp only [mem_iff_getElem?, forall_exists_index]
  rw [forall_comm]
  exact forall_set_iff h c'

lemma exists_mem_set_iff {P : τ → Prop} {l : List τ} {c : τ} (h : l[i]? = some c) (c' : τ) :
    (∃ d ∈ l.set i c', P d) ↔ P c' ∨ ∃ j d, j ≠ i ∧ l[j]? = some d ∧ P d := by
  rw [← not_iff_not]
  simp only [not_exists, not_and, not_or]
  exact forall_mem_set_iff h c'

lemma exists_mem_iff {P : τ → Prop} {l : List τ} {c : τ} (h : l[i]? = some c) :
    (∃ d ∈ l, P d) ↔ P c ∨ ∃ j d, j ≠ i ∧ l[j]? = some d ∧ P d := by
  have hself : l.set i c = l := by
    obtain ⟨hi, rfl⟩ := List.getElem?_eq_some_iff.mp h
    exact List.set_getElem_self hi
  rw [← exists_mem_set_iff h c, hself]

lemma forall_concat_iff {P : ℕ → τ → Prop} {l : List τ} {c : τ} :
    (∀ j d, (l ++ [c])[j]? = some d → P j d) ↔ (∀ j d, l[j]? = some d → P j d) ∧ P l.length c := by
  constructor
  · intro hall
    refine ⟨fun j d hd => hall j d ?_, hall _ c (by simp)⟩
    rw [List.getElem?_append_left (List.getElem?_eq_some_iff.mp hd).1, hd]
  · rintro ⟨hold, hnew⟩ j d hd
    rcases Nat.lt_or_ge j l.length with hj | hj
    · rw [List.getElem?_append_left hj] at hd
      exact hold j d hd
    rw [List.getElem?_append_right hj] at hd
    have hlt := (List.getElem?_eq_some_iff.mp hd).1
    have hzero : j - l.length = 0 := by simpa using hlt
    obtain rfl : j = l.length := by omega
    rw [hzero] at hd
    cases hd
    exact hnew

/-! ### The interference rule -/

def Each (L : ℕ → σ → τ → Prop) (p : Pool σ τ) : Prop :=
  ∀ i c, p.calls[i]? = some c → L i p.shared c

/-- A call keeps `I` and its own assertion, and leaves the assertions of the others alone. -/
structure Stable (S : System σ τ κ α ε) (I : σ → Prop) (L : ℕ → σ → τ → Prop) : Prop where
  start : ∀ {i s} (k), I s → L i s (S.start k)
  own : ∀ {i s c a s' c'}, I s → L i s c → S.advance i s c a = some (s', c') → I s' ∧ L i s' c'
  other : ∀ {i j s c d a s' c'}, I s → L i s c → L j s d → i ≠ j →
    S.advance i s c a = some (s', c') → L j s' d
  env : ∀ {s e s'}, I s → S.env s e = some s' → I s' ∧ ∀ {i c}, L i s c → L i s' c

lemma Stable.step {I : σ → Prop} {L : ℕ → σ → τ → Prop} {e : Event κ α ε} (h : Stable S I L)
    (hp : I p.shared ∧ Each L p) (hstep : S.step p e = some q) : I q.shared ∧ Each L q := by
  obtain ⟨hI, hL⟩ := hp
  cases e with
  | arrive k =>
    cases hstep
    exact ⟨hI, forall_concat_iff.mpr ⟨hL, h.start k hI⟩⟩
  | move i a =>
    obtain ⟨c, s, c', hc, ha, rfl⟩ := step_move.mp hstep
    have hown := h.own hI (hL i c hc) ha
    refine ⟨hown.1, (forall_set_iff hc c').mpr ⟨hown.2, fun j d hij hd => ?_⟩⟩
    exact h.other hI (hL i c hc) (hL j d hd) hij.symm ha
  | env e =>
    obtain ⟨s, hs, rfl⟩ := step_env.mp hstep
    obtain ⟨hI', hL'⟩ := h.env hI hs
    exact ⟨hI', fun j d hd => hL' (hL j d hd)⟩

/-! ### Counts and sums over the calls -/

lemma countP_set {l : List τ} {c : τ} (f : τ → Bool) (h : l[i]? = some c) (c' : τ) :
    (l.set i c').countP f + (f c).toNat = l.countP f + (f c').toNat := by
  induction l generalizing i with
  | nil => simp at h
  | cons d ds ih =>
    cases i with
    | zero =>
      obtain rfl := Option.some.inj h
      cases hc : f d <;> cases hc' : f c' <;> simp [hc, hc']
    | succ i =>
      have := ih h
      simp only [set_cons_succ, countP_cons]
      omega

section
variable {M : Type*} [AddCommMonoid M]

def total (f : τ → M) : List τ → M
  | [] => 0
  | c :: cs => f c + total f cs

lemma total_append (f : τ → M) (l l' : List τ) : total f (l ++ l') = total f l + total f l' := by
  induction l with
  | nil => simp [total]
  | cons c cs ih => simp [total, ih, add_assoc]

lemma total_set {l : List τ} {c : τ} (f : τ → M) (h : l[i]? = some c) (c' : τ) :
    total f (l.set i c') + f c = total f l + f c' := by
  induction l generalizing i with
  | nil => simp at h
  | cons d ds ih =>
    cases i with
    | zero =>
      cases h
      simp [total, add_comm, add_left_comm]
    | succ i => simp only [set_cons_succ, total, add_assoc, ih h]

lemma total_modify {l : List τ} {c : τ} (f : τ → M) (h : l[i]? = some c) (g : τ → τ) :
    total f (l.modify i g) + f c = total f l + f (g c) := by
  rw [modify_eq_set_getElem?, h]
  exact total_set f h (g c)

lemma total_modify_eq {f : τ → M} {g : τ → τ} (hg : ∀ c, f (g c) = f c) (l : List τ) (i : ℕ) :
    total f (l.modify i g) = total f l := by
  induction l generalizing i with
  | nil => simp
  | cons d ds ih =>
    cases i with
    | zero => simp only [modify_zero_cons, total, hg]
    | succ i => simp only [modify_succ_cons, total, ih]

end

lemma le_total {f : τ → ℕ} {c : τ} {l : List τ} (h : c ∈ l) : f c ≤ total f l := by
  induction l with
  | nil => cases h
  | cons d ds ih =>
    rcases mem_cons.mp h with rfl | h
    · exact Nat.le_add_right _ _
    · exact Nat.le_trans (ih h) (Nat.le_add_left _ _)

end Tokilake.Lib.Calls
