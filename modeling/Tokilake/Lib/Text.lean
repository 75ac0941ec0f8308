import Mathlib.Data.List.DropRight
import Mathlib.Data.String.Basic

/-! # Trimming, splitting and joining text

`trimSpace` cuts the white space of Unicode off both ends, `split` cuts at a separator and `join`
puts the parts together again.

* `split_join`, `mem_splitOn_iff`, `trimSpace_trimSpace`. -/

namespace Tokilake.Lib.Text

open List

def isSpace (c : Char) : Bool :=
  c.toNat ∈ [0x09, 0x0a, 0x0b, 0x0c, 0x0d, 0x20, 0x85, 0xa0, 0x1680, 0x2028, 0x2029, 0x202f, 0x205f,
    0x3000] || (0x2000 ≤ c.toNat && c.toNat ≤ 0x200a)

def trimSpace (s : String) : String :=
  String.ofList ((s.toList.dropWhile isSpace).rdropWhile isSpace)

def split (sep : Char) (s : String) : List String := (s.toList.splitOn sep).map String.ofList

def join (sep : Char) (parts : List String) : String :=
  String.ofList ([sep].intercalate (parts.map String.toList))

/-- The lower case of a letter; two letters from outside ASCII are mapped into it. -/
def lowerChar (c : Char) : Char :=
  if c = '\u0130' then 'i' else if c = '\u212a' then 'k' else c.toLower

def toLower (s : String) : String := String.ofList (s.toList.map lowerChar)

/-! ### Trimming -/

lemma dropWhile_initial {α : Type} {p : α → Bool} {l l' : List α} (h : l' <+: l)
    (hl : l.dropWhile p = l) : l'.dropWhile p = l' := by
  rw [dropWhile_eq_self_iff] at hl ⊢
  intro hlt
  rw [h.getElem hlt]
  exact hl (hlt.trans_le h.length_le)

@[simp] lemma trimSpace_trimSpace (s : String) : trimSpace (trimSpace s) = trimSpace s := by
  unfold trimSpace
  have hinit := rdropWhile_prefix isSpace (s.toList.dropWhile isSpace)
  rw [String.toList_ofList, dropWhile_initial hinit (dropWhile_idempotent _ _),
    rdropWhile_idempotent]

lemma mem_of_mem_trimSpace {s : String} {c : Char} (h : c ∈ (trimSpace s).toList) :
    c ∈ s.toList := by
  rw [trimSpace, String.toList_ofList] at h
  have hinit := rdropWhile_prefix isSpace (s.toList.dropWhile isSpace)
  exact dropWhile_subset _ (hinit.subset h)

lemma mem_dropWhile_of_mem {α : Type} {p : α → Bool} {a : α} (ha : p a = false) :
    ∀ {l : List α}, a ∈ l → a ∈ l.dropWhile p
  | b :: l, h => by
    rw [dropWhile_cons]
    split_ifs with hb
    · rcases mem_cons.mp h with rfl | h
      · rw [ha] at hb
        cases hb
      · exact mem_dropWhile_of_mem ha h
    · exact h

lemma mem_trimSpace_of_mem {s : String} {c : Char} (h : c ∈ s.toList) (hc : isSpace c = false) :
    c ∈ (trimSpace s).toList := by
  have hfront := mem_dropWhile_of_mem hc h
  rw [trimSpace, String.toList_ofList, rdropWhile, mem_reverse]
  exact mem_dropWhile_of_mem hc (mem_reverse.mpr hfront)

lemma trimSpace_of_forall {s : String} (h : ∀ c ∈ s.toList, isSpace c = false) :
    trimSpace s = s := by
  have hfront : s.toList.dropWhile isSpace = s.toList := by
    rw [dropWhile_eq_self_iff]
    intro hlt
    rw [h _ (getElem_mem hlt)]
    simp
  have hback : s.toList.rdropWhile isSpace = s.toList := by
    rw [rdropWhile_eq_self_iff]
    intro hl
    rw [h _ (getLast_mem hl)]
    simp
  rw [trimSpace, hfront, hback, String.ofList_toList]

/-! ### Splitting and joining -/

lemma not_mem_of_mem_splitOn {α : Type} [BEq α] [LawfulBEq α] {sep : α} :
    ∀ {l part : List α}, part ∈ l.splitOn sep → sep ∉ part
  | [], part, h => by simp_all
  | a :: l, part, h => by
    rw [splitOn_cons_eq_if_modifyHead] at h
    split_ifs at h with ha
    · rcases mem_cons.mp h with rfl | h
      · simp
      · exact not_mem_of_mem_splitOn h
    -- the first part grows by `a`, the others are those of `l`
    rcases hs : l.splitOn sep with _ | ⟨first, rest⟩
    · simp [hs] at h
    rw [hs, modifyHead_cons, mem_cons] at h
    have hmem : ∀ part ∈ first :: rest, sep ∉ part := by
      intro part' h'
      exact not_mem_of_mem_splitOn (hs ▸ h')
    rcases h with rfl | h
    · have := hmem first (by simp)
      have ha' : a ≠ sep := by simpa using ha
      simp [this, ha'.symm]
    · exact hmem part (mem_cons_of_mem _ h)

lemma not_mem_of_mem_split {sep : Char} {s part : String} (h : part ∈ split sep s) :
    sep ∉ part.toList := by
  obtain ⟨l, hl, rfl⟩ := mem_map.mp h
  rw [String.toList_ofList]
  exact not_mem_of_mem_splitOn hl

lemma split_of_not_mem {sep : Char} {s : String} (h : sep ∉ s.toList) : split sep s = [s] := by
  rw [split, splitOn_eq_singleton h, map_singleton, String.ofList_toList]

lemma split_join {sep : Char} {parts : List String} (hne : parts ≠ [])
    (h : ∀ part ∈ parts, sep ∉ part.toList) : split sep (join sep parts) = parts := by
  unfold split join
  rw [String.toList_ofList, splitOn_intercalate]
  · simp [Function.comp_def]
  · simpa using h
  · simpa using hne

lemma intercalate_append_of_ne_nil {α : Type} (sep : List α) :
    ∀ {ps qs : List (List α)}, ps ≠ [] → qs ≠ [] →
    sep.intercalate (ps ++ qs) = sep.intercalate ps ++ sep ++ sep.intercalate qs
  | [p], q :: qs, _, _ => by rw [singleton_append, intercalate_cons_cons, intercalate_singleton]
  | p :: p' :: ps, qs, _, hqs => by
    have ih := intercalate_append_of_ne_nil sep (cons_ne_nil p' ps) hqs
    rw [cons_append] at ih
    rw [cons_append, cons_append, intercalate_cons_cons, intercalate_cons_cons, ih]
    simp only [append_assoc]

lemma mem_splitOn_iff {α : Type} [BEq α] [LawfulBEq α] {sep : α} {l x : List α} :
    x ∈ l.splitOn sep ↔ sep ∉ x ∧ ∃ a b, sep :: (l ++ [sep]) = a ++ sep :: (x ++ sep :: b) := by
  have hparts : (sep :: (l ++ [sep])).splitOn sep = [] :: (l.splitOn sep ++ [[]]) := by
    rw [← nil_append (sep :: _), splitOn_append_cons_self, splitOn_append_cons_self]
    rfl
  constructor
  · intro hx
    refine ⟨not_mem_of_mem_splitOn hx, ?_⟩
    obtain ⟨before, after, hsplit⟩ := append_of_mem hx
    refine ⟨[sep].intercalate ([] :: before), [sep].intercalate (after ++ [[]]), ?_⟩
    have hlist : ([] : List α) :: (before ++ x :: after ++ [[]]) = ([] :: before) ++
        ([x] ++ (after ++ [[]])) := by
      simp
    have hjoin : [sep].intercalate ((sep :: (l ++ [sep])).splitOn sep) = _ :=
      intercalate_splitOn sep
    rw [← hjoin, hparts, hsplit, hlist,
      intercalate_append_of_ne_nil _ (by simp) (by simp),
        intercalate_append_of_ne_nil _ (by simp) (by simp),
      intercalate_singleton]
    simp
  · rintro ⟨hsep, a, b, heq⟩
    rw [heq, splitOn_append_cons_self, splitOn_append_cons_self, splitOn_eq_singleton hsep]
      at hparts
    -- both ends have at least one part, so `x` is none of the two empty ones
    obtain ⟨first, fs, hfirst⟩ := exists_cons_of_ne_nil (splitOn_ne_nil sep a)
    obtain ⟨rest, final, hrest⟩ :=
      (eq_nil_or_concat (b.splitOn sep)).resolve_left (splitOn_ne_nil sep b)
    rw [hfirst, hrest, concat_eq_append, cons_append, cons.injEq, ← append_assoc,
      ← append_assoc] at hparts
    rw [← (append_inj' hparts.2 rfl).1]
    simp

end Tokilake.Lib.Text
