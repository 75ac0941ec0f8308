import Mathlib.Data.List.Basic

/-! # Passes over a record

Passes that are idempotent each are so one after the other, if none writes what an earlier one reads
(`runAll_idem`). -/

namespace Tokilake.Lib.Passes

structure Pass (κ α : Type) where
  run : (κ → α) → κ → α
  reads : List κ
  writes : List κ
  reads_writes : ∀ k ∈ writes, k ∈ reads
  frame : ∀ p, ∀ k ∉ writes, run p k = p k
  agree : ∀ p q, (∀ k ∈ reads, p k = q k) → ∀ k ∈ writes, run p k = run q k
  idem : ∀ p, run (run p) = run p

variable {κ α : Type}

def runAll : List (Pass κ α) → (κ → α) → κ → α
  | [], p => p
  | s :: ss, p => runAll ss (s.run p)

/-- `t` writes nothing that `s` reads. -/
def Spares (s t : Pass κ α) : Prop := ∀ k ∈ t.writes, k ∉ s.reads

instance [DecidableEq κ] (s t : Pass κ α) : Decidable (Spares s t) :=
  inferInstanceAs (Decidable (∀ k ∈ t.writes, k ∉ s.reads))

lemma runAll_frame {k : κ} : ∀ {ss : List (Pass κ α)} (p : κ → α),
    (∀ s ∈ ss, k ∉ s.writes) → runAll ss p k = p k
  | [], _, _ => rfl
  | s :: ss, p, h => by
    rw [runAll, runAll_frame _ fun t ht => h t (List.mem_cons_of_mem _ ht),
      s.frame p k (h s List.mem_cons_self)]

lemma Pass.fixed (s : Pass κ α) {p q : κ → α} (h : ∀ k ∈ s.reads, q k = s.run p k) :
    s.run q = q := by
  funext k
  by_cases hk : k ∈ s.writes
  · rw [s.agree q (s.run p) h k hk, s.idem, h k (s.reads_writes k hk)]
  · exact s.frame q k hk

lemma run_runAll : ∀ {ss : List (Pass κ α)} (p : κ → α), ss.Pairwise Spares →
    ∀ s ∈ ss, s.run (runAll ss p) = runAll ss p
  | s :: ss, p, h, t, ht => by
    obtain ⟨hspares, hss⟩ := List.pairwise_cons.mp h
    rcases List.mem_cons.mp ht with rfl | ht
    · exact t.fixed fun k hk => runAll_frame _ fun u hu hw => hspares u hu k hw hk
    · exact run_runAll (s.run p) hss t ht

lemma runAll_fixed {q : κ → α} : ∀ {ss : List (Pass κ α)}, (∀ s ∈ ss, s.run q = q) → runAll ss q = q
  | [], _ => rfl
  | s :: ss, h => by
    rw [runAll, h s List.mem_cons_self, runAll_fixed fun t ht => h t (List.mem_cons_of_mem _ ht)]

lemma runAll_idem {ss : List (Pass κ α)} (h : ss.Pairwise Spares) (p : κ → α) :
    runAll ss (runAll ss p) = runAll ss p := runAll_fixed (run_runAll p h)

end Tokilake.Lib.Passes
