import Mathlib.Data.List.Forall2
import Mathlib.Data.List.Infix

/-! # The operator `LIKE` of SQL

A percent sign stands for any text and an underscore for one character; `same` is the collation.
Escapes are left out.

* `like_infix`: a pattern between percent signs finds the texts that contain it. -/

namespace Tokilake.Lib.Like

open List

def like (same : Char → Char → Bool) : List Char → List Char → Bool
  | [], text => text.isEmpty
  | c :: pattern, text =>
    if c = '%' then text.tails.any (like same pattern)
    else match text with
      | [] => false
      | d :: text => (c = '_' || same c d) && like same pattern text

variable {same : Char → Char → Bool} {lit pattern text : List Char}

def Literal (lit : List Char) : Prop := ∀ c ∈ lit, c ≠ '%' ∧ c ≠ '_'

lemma like_percent :
    like same ('%' :: pattern) text = true ↔ ∃ a b, text = a ++ b ∧ like same pattern b = true := by
  rw [like.eq_def]
  dsimp only
  rw [if_pos rfl, any_eq_true]
  constructor
  · rintro ⟨b, hb, hlike⟩
    obtain ⟨a, rfl⟩ := (mem_tails _ _).mp hb
    exact ⟨a, b, rfl, hlike⟩
  · rintro ⟨a, b, rfl, hlike⟩
    exact ⟨b, (mem_tails _ _).mpr (suffix_append a b), hlike⟩

lemma like_cons {c : Char} (hpercent : c ≠ '%') (hunder : c ≠ '_') :
    like same (c :: pattern) text = true ↔
      ∃ d rest, text = d :: rest ∧ same c d = true ∧ like same pattern rest = true := by
  rw [like.eq_def]
  dsimp only
  rw [if_neg hpercent]
  cases text with
  | nil => simp
  | cons d text => simp [hunder]

lemma like_append (h : Literal lit) : like same (lit ++ pattern) text = true ↔
      ∃ found rest, text = found ++ rest ∧ List.Forall₂ (fun c d => same c d = true) lit found ∧
        like same pattern rest = true := by
  induction lit generalizing text with
  | nil => simp
  | cons c lit ih =>
    obtain ⟨⟨hpercent, hunder⟩, hlit⟩ := forall_mem_cons.mp h
    rw [cons_append, like_cons hpercent hunder]
    constructor
    · rintro ⟨d, text, rfl, hsame, hlike⟩
      obtain ⟨found, rest, rfl, hall, hrest⟩ := (ih hlit).mp hlike
      exact ⟨d :: found, rest, rfl, .cons hsame hall, hrest⟩
    · rintro ⟨_, rest, rfl, hall, hrest⟩
      cases hall with
      | cons hsame hall => exact ⟨_, _, rfl, hsame, (ih hlit).mpr ⟨_, rest, rfl, hall, hrest⟩⟩

lemma forall₂_append_left {R : Char → Char → Prop} {l l' m : List Char}
    (h : List.Forall₂ R (l ++ l') m) :
    ∃ x y, m = x ++ y ∧ List.Forall₂ R l x ∧ List.Forall₂ R l' y :=
  ⟨m.take l.length, m.drop l.length, (take_append_drop _ _).symm,
    (forall₂_take_append _ _ _ h.flip).flip, (forall₂_drop_append _ _ _ h.flip).flip⟩

lemma like_infix (h : Literal lit) : like same ('%' :: (lit ++ ['%'])) text = true ↔
      ∃ a found b, text = a ++ (found ++ b) ∧
        List.Forall₂ (fun c d => same c d = true) lit found := by
  have hany : ∀ rest, like same ['%'] rest = true :=
    fun rest => like_percent.mpr ⟨rest, [], (append_nil _).symm, rfl⟩
  rw [like_percent]
  constructor
  · rintro ⟨a, _, rfl, hlike⟩
    obtain ⟨found, rest, rfl, hall, -⟩ := (like_append h).mp hlike
    exact ⟨a, found, rest, rfl, hall⟩
  · rintro ⟨a, found, rest, rfl, hall⟩
    exact ⟨a, _, rfl, (like_append h).mpr ⟨found, rest, rfl, hall, hany rest⟩⟩

end Tokilake.Lib.Like
