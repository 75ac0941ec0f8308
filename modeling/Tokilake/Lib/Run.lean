import Mathlib.Algebra.Group.Defs
import Mathlib.Data.List.Basic

/-! # Runs of a labelled step function

`step s a = some t` says that the atomic step `a` is enabled in `s` and leads to `t`.  What a state
leaves open is a part of the label, so a list of labels is one interleaving.

* `run_invariant`: what every step preserves, over a run;
* `stays_iff_along_of_invariant`: an exact rule for what a run keeps;
* `exists_rest`: steps that lower a measure come to an end. -/

namespace Tokilake.Lib.Run

open List

variable {σ α : Type*} {step : σ → α → Option σ}

def run (step : σ → α → Option σ) : σ → List α → Option σ
  | s, [] => some s
  | s, a :: as => (step s a).bind fun t => run step t as

@[simp] lemma run_nil (s : σ) : run step s [] = some s := rfl

lemma run_cons {s t : σ} {a : α} {as : List α} :
    run step s (a :: as) = some t ↔ ∃ u, step s a = some u ∧ run step u as = some t := by
  simp [run, Option.bind_eq_some_iff]

def Along (step : σ → α → Option σ) (ok : σ → α → Prop) : σ → List α → Prop
  | _, [] => True
  | s, a :: as => ok s a ∧ ∀ t, step s a = some t → Along step ok t as

variable {ok : σ → α → Prop}

@[simp] lemma along_nil (s : σ) : Along step ok s [] := trivial

instance decidableAlong [∀ s a, Decidable (ok s a)] :
    ∀ (s : σ) (as : List α), Decidable (Along step ok s as)
  | _, [] => isTrue trivial
  | s, a :: as =>
    match h : step s a with
    | none => decidable_of_iff (ok s a) (by simp [Along, h])
    | some t =>
      have : Decidable (Along step ok t as) := decidableAlong t as
      decidable_of_iff (ok s a ∧ Along step ok t as) (by simp [Along, h])

variable {I : σ → Prop}

/-- **The invariant rule.**  What every step meeting `ok` preserves holds along a run of them. -/
theorem run_invariant
    (hstep : ∀ {s a t}, I s → ok s a → step s a = some t → I t) :
    ∀ {as : List α} {s t : σ}, I s → Along step ok s as → run step s as = some t → I t
  | [], s, t, hI, _, h => by cases h; exact hI
  | a :: as, s, t, hI, hok, h => by
    obtain ⟨u, hu, h'⟩ := run_cons.mp h
    exact run_invariant hstep (hstep hI hok.1 hu) (hok.2 u hu) h'

lemma run_invariant_forall {p : α → Prop}
    (hstep : ∀ {s a t}, I s → p a → step s a = some t → I t) :
    ∀ {as : List α} {s t : σ}, I s → (∀ a ∈ as, p a) → run step s as = some t → I t
  | [], s, t, hI, _, h => by cases h; exact hI
  | a :: as, s, t, hI, hp, h => by
    obtain ⟨u, hu, h'⟩ := run_cons.mp h
    exact run_invariant_forall hstep (hstep hI (hp a mem_cons_self) hu)
      (fun b hb => hp b (mem_cons_of_mem _ hb)) h'

lemma run_invariant' (hstep : ∀ {s a t}, I s → step s a = some t → I t)
    {as : List α} {s t : σ} (hI : I s) (h : run step s as = some t) : I t :=
  run_invariant_forall (fun hI _ hs => hstep hI hs) hI (fun _ _ => trivial) h

def Stays (step : σ → α → Option σ) (I : σ → Prop) (s : σ) (as : List α) : Prop :=
  ∀ (k : ℕ) (t : σ), run step s (as.take k) = some t → I t

lemma stays_nil {s : σ} : Stays step I s [] ↔ I s := by simp [Stays]

lemma stays_cons {s t : σ} {a : α} {as : List α} (h : step s a = some t) :
    Stays step I s (a :: as) ↔ I s ∧ Stays step I t as := by
  constructor
  · intro hstays
    refine ⟨hstays 0 s rfl, fun k u hu => hstays (k + 1) u ?_⟩
    exact run_cons.mpr ⟨t, h, hu⟩
  · rintro ⟨hI, hstays⟩ (_ | k) u hu
    · cases hu; exact hI
    · obtain ⟨t', ht', hu'⟩ := run_cons.mp hu
      obtain rfl := Option.some.inj (h.symm.trans ht')
      exact hstays k u hu'

lemma stays_cons_none {s : σ} {a : α} {as : List α} (h : step s a = none) :
    Stays step I s (a :: as) ↔ I s := by
  constructor
  · exact fun hstays => hstays 0 s rfl
  · rintro hI (_ | k) u hu
    · cases hu; exact hI
    · obtain ⟨t, ht, -⟩ := run_cons.mp hu
      rw [h] at ht
      cases ht

lemma stays_of_along
    (hstep : ∀ {s a t}, I s → ok s a → step s a = some t → I t) :
    ∀ {as : List α} {s : σ}, I s → Along step ok s as → Stays step I s as
  | [], _, hI, _ => stays_nil.mpr hI
  | a :: as, s, hI, hok => by
    cases ht : step s a with
    | none => exact (stays_cons_none ht).mpr hI
    | some t =>
      exact (stays_cons ht).mpr ⟨hI, stays_of_along hstep (hstep hI hok.1 ht) (hok.2 t ht)⟩

/-- **The exact rule**: if in `J` a step keeps `I` exactly when it meets `ok`, so does a run. -/
theorem stays_iff_along_of_invariant {I J : σ → Prop}
    (hnone : ∀ {s a}, step s a = none → ok s a) (hJ : ∀ {s a t}, J s → step s a = some t → J t)
    (hstep : ∀ {s a t}, J s → I s → step s a = some t → (I t ↔ ok s a)) :
    ∀ {as : List α} {s : σ}, J s → I s → (Stays step I s as ↔ Along step ok s as)
  | [], s, _, hI => by simp [stays_nil, hI]
  | a :: as, s, hJs, hI => by
    cases ht : step s a with
    | none =>
      rw [stays_cons_none ht]
      exact iff_of_true hI ⟨hnone ht, fun t h => by rw [ht] at h; cases h⟩
    | some t =>
      have hJt : J t := hJ hJs ht
      rw [stays_cons ht]
      constructor
      · rintro ⟨-, hstays⟩
        have hIt : I t := hstays 0 t rfl
        refine ⟨(hstep hJs hI ht).mp hIt, fun u hu => ?_⟩
        obtain rfl := Option.some.inj (ht.symm.trans hu)
        exact (stays_iff_along_of_invariant hnone hJ hstep hJt hIt).mp hstays
      · rintro ⟨hok, hall⟩
        have hIt : I t := (hstep hJs hI ht).mpr hok
        exact ⟨hI, (stays_iff_along_of_invariant hnone hJ hstep hJt hIt).mpr (hall t ht)⟩

lemma along_imp {ok ok' : σ → α → Prop} {I : σ → Prop} (himp : ∀ {s a}, I s → ok s a → ok' s a) :
    ∀ {as : List α} {s : σ}, Stays step I s as → Along step ok s as → Along step ok' s as
  | [], _, _, _ => trivial
  | _ :: _, s, hstays, halong =>
    ⟨himp (hstays 0 s rfl) halong.1, fun t ht =>
      along_imp himp ((stays_cons ht).mp hstays).2 (halong.2 t ht)⟩

lemma along_and {ok' : σ → α → Prop} : ∀ {as : List α} {s : σ}, Along step ok s as →
    Along step ok' s as → Along step (fun s a => ok s a ∧ ok' s a) s as
  | [], _, _, _ => trivial
  | _ :: _, _, h, h' => ⟨⟨h.1, h'.1⟩, fun t ht => along_and (h.2 t ht) (h'.2 t ht)⟩

lemma stays_iff_forall {ok : α → Prop} {I J : σ → Prop}
    (hJ : ∀ {s a t}, J s → step s a = some t → J t)
    (hstep : ∀ {s a t}, J s → I s → step s a = some t → (I t ↔ ok a)) :
    ∀ {as : List α} {s t : σ}, J s → I s → run step s as = some t →
      (Stays step I s as ↔ ∀ a ∈ as, ok a)
  | [], s, _, _, hI, _ => by simp [stays_nil, hI]
  | a :: as, s, t, hJs, hI, hrun => by
    obtain ⟨u, hu, hrest⟩ := run_cons.mp hrun
    rw [stays_cons hu, forall_mem_cons, ← hstep hJs hI hu]
    constructor
    · rintro ⟨-, hstays⟩
      have hIu : I u := hstays 0 u rfl
      exact ⟨hIu, (stays_iff_forall hJ hstep (hJ hJs hu) hIu hrest).mp hstays⟩
    · rintro ⟨hIu, hall⟩
      exact ⟨hI, (stays_iff_forall hJ hstep (hJ hJs hu) hIu hrest).mpr hall⟩

lemma of_total (htotal : ∀ s a, ∃ t, step s a = some t) {s : σ} {a : α}
    (h : step s a = none) : ok s a := by
  obtain ⟨t, ht⟩ := htotal s a
  rw [h] at ht
  cases ht

/-- The exact rule for steps that are always enabled, without a further invariant. -/
lemma stays_iff_along (htotal : ∀ s a, ∃ t, step s a = some t)
    (hstep : ∀ {s a t}, I s → step s a = some t → (I t ↔ ok s a)) {as : List α} {s : σ} (hI : I s) :
    Stays step I s as ↔ Along step ok s as :=
  stays_iff_along_of_invariant (J := fun _ => True) (of_total htotal) (fun _ _ => trivial)
    (fun _ hI ht => hstep hI ht) trivial hI

lemma run_append {s t : σ} {as bs : List α} :
    run step s (as ++ bs) = some t ↔ ∃ u, run step s as = some u ∧ run step u bs = some t := by
  induction as generalizing s with
  | nil => simp
  | cons a as ih =>
    constructor
    · intro h
      obtain ⟨v, hv, h⟩ := run_cons.mp h
      obtain ⟨u, hu, hbs⟩ := ih.mp h
      exact ⟨u, run_cons.mpr ⟨v, hv, hu⟩, hbs⟩
    · rintro ⟨u, hu, hbs⟩
      obtain ⟨v, hv, hu⟩ := run_cons.mp hu
      exact run_cons.mpr ⟨v, hv, ih.mpr ⟨u, hu, hbs⟩⟩

lemma along_append {as bs : List α} {s t : σ} (h : run step s as = some t) :
    Along step ok s (as ++ bs) ↔ Along step ok s as ∧ Along step ok t bs := by
  induction as generalizing s with
  | nil =>
    cases h
    simp
  | cons a as ih =>
    obtain ⟨u, hu, h⟩ := run_cons.mp h
    simp only [cons_append, Along, hu, Option.some.injEq, forall_eq', ih h, and_assoc]

/-! ### Sums over a run -/

section
variable {M : Type*} [AddMonoid M]

def sumAlong (step : σ → α → Option σ) (f : σ → α → M) : σ → List α → M
  | _, [] => 0
  | s, a :: as =>
    match step s a with
    | none => f s a
    | some t => f s a + sumAlong step f t as

lemma sumAlong_cons {f : σ → α → M} {s t : σ} {a : α} {as : List α} (h : step s a = some t) :
    sumAlong step f s (a :: as) = f s a + sumAlong step f t as := by
  simp [sumAlong, h]

end

/-! ### The last step of a kind -/

lemma cases_last (p : α → Prop) (as : List α) : (∀ a ∈ as, ¬ p a) ∨
      ∃ before a after, as = before ++ a :: after ∧ p a ∧ ∀ b ∈ after, ¬ p b := by
  induction as with
  | nil => exact .inl (by simp)
  | cons a as ih =>
    rcases ih with hnone | ⟨before, b, after, rfl, hb, hafter⟩
    · by_cases ha : p a
      · exact .inr ⟨[], a, as, rfl, ha, hnone⟩
      refine .inl fun b hb => ?_
      rcases mem_cons.mp hb with rfl | hb
      · exact ha
      · exact hnone b hb
    · exact .inr ⟨a :: before, b, after, rfl, hb, hafter⟩

lemma run_frame {β : Type*} {f : σ → β} {p : α → Prop}
    (hframe : ∀ {s a t}, step s a = some t → p a → f t = f s) :
    ∀ {as : List α} {s t : σ}, run step s as = some t → (∀ a ∈ as, p a) → f t = f s
  | [], s, t, h, _ => by
    cases h
    rfl
  | a :: as, s, t, h, hp => by
    obtain ⟨u, hu, h⟩ := run_cons.mp h
    rw [run_frame hframe h fun b hb => hp b (mem_cons_of_mem _ hb), hframe hu (hp a mem_cons_self)]

/-- **No write without its store**, if a write leaves a debt that only a store can pay. -/
theorem no_write_of_paid {owes : σ → Prop} {writes stores : α → Prop}
    (hwrite : ∀ {s a t}, step s a = some t → writes a → owes t)
    (hkeep : ∀ {s a t}, owes s → step s a = some t → ¬ stores a → owes t) :
    ∀ {as : List α} {s t : σ}, run step s as = some t → (∀ a ∈ as, ¬ stores a) → ¬ owes t →
      ∀ a ∈ as, ¬ writes a
  | [], _, _, _, _, _ => by simp
  | a :: as, s, t, h, hstores, ht => by
    obtain ⟨u, hu, hrun⟩ := run_cons.mp h
    have hrest : ∀ b ∈ as, ¬ stores b := fun b hb => hstores b (mem_cons_of_mem _ hb)
    intro b hb hwrites
    rcases mem_cons.mp hb with heq | hb
    · subst heq
      have hdebt := hwrite hu hwrites
      exact ht (@run_invariant_forall _ _ step owes _
        (fun ho hs h => hkeep ho h hs) _ _ _ hdebt hrest
        hrun)
    · exact no_write_of_paid hwrite hkeep hrun hrest ht b hb hwrites

/-! ### Coming to rest -/

variable {task : α → Bool} {size : σ → ℕ} {J : σ → Prop}

def Rest (step : σ → α → Option σ) (task : α → Bool) (s : σ) : Prop :=
  ∀ a, task a = true → step s a = none

/-- **Steps that lower a measure come to an end**, if no other step raises it. -/
theorem countP_task_le (hJ : ∀ {s a t}, J s → step s a = some t → J t)
    (hstep : ∀ {s a t}, J s → step s a = some t → size t + (if task a then 1 else 0) ≤ size s) :
    ∀ {as : List α} {s t : σ}, J s → run step s as = some t → size t + as.countP task ≤ size s
  | [], s, t, _, h => by
    cases h
    simp
  | a :: as, s, t, hJs, h => by
    obtain ⟨u, hu, h⟩ := run_cons.mp h
    have hhead := hstep hJs hu
    have htail := countP_task_le hJ hstep (hJ hJs hu) h
    rw [countP_cons]
    omega

lemma exists_rest (hJ : ∀ {s a t}, J s → step s a = some t → J t)
    (hstep : ∀ {s a t}, J s → step s a = some t → size t + (if task a then 1 else 0) ≤ size s)
    {s : σ} (hs : J s) :
    ∃ as t, (∀ a ∈ as, task a = true) ∧ run step s as = some t ∧ Rest step task t := by
  induction hn : size s using Nat.strongRecOn generalizing s with
  | ind n ih =>
    by_cases hrest : Rest step task s
    · exact ⟨[], s, nofun, rfl, hrest⟩
    unfold Rest at hrest
    push Not at hrest
    obtain ⟨a, htask, hne⟩ := hrest
    obtain ⟨u, hu⟩ := Option.ne_none_iff_exists'.mp hne
    have hlt := hstep hs hu
    rw [if_pos htask] at hlt
    obtain ⟨as, t, hall, hrun, hrest⟩ := ih (size u) (by omega) (hJ hs hu) rfl
    refine ⟨a :: as, t, ?_, run_cons.mpr ⟨u, hu, hrun⟩, hrest⟩
    intro a' ha'
    rcases mem_cons.mp ha' with rfl | ha'
    · exact htask
    · exact hall a' ha'

end Tokilake.Lib.Run
