import Tokilake.Hub.Groups
import Tokilake.Lib.Like
import Tokilake.Routing.Chooser

/-! # References to a private group

`HasPrivateGroupChannelReference` looks for a slug in a channel's list of groups by a `LIKE`
pattern; the chooser splits the list at the commas and trims the parts.

* `reference_iff`: when both agree. -/

namespace Tokilake.PrivateGroup.Reference

open Lib Lib.Like Hub.Groups List
open Routing (Channel names)

/-- Characters with the same `fold` are the same in `LIKE`; none is the same as the comma, so
MySQL's collations that identify the fullwidth comma with it are left out. -/
structure Collation where
  fold : Char → Char
  comma : ∀ c, fold c = fold ',' → c = ','

def postgres : Collation := ⟨id, fun _ h => h⟩

def hasPrivateGroupChannelReference (col : Collation) (groupSlug : String)
    (rows : List Channel) : Bool :=
  groupSlug ≠ "" && rows.any fun ch =>
    like (fun c d => col.fold c = col.fold d) ("%," ++ groupSlug ++ ",%").toList
      ("," ++ ch.group ++ ",").toList

def parts (rows : List Channel) : List String := rows.flatMap fun ch => Text.split ',' ch.group

def Collation.Same (col : Collation) (s t : String) : Prop :=
  s.toList.map col.fold = t.toList.map col.fold

section
variable {col : Collation} {slug : String} {rows : List Channel}

lemma slug_literal (h : SlugPattern slug) : Literal (',' :: (slug.toList ++ [','])) := by
  intro c hc
  rw [mem_cons, mem_append, mem_singleton] at hc
  rcases hc with rfl | hc | rfl
  · decide
  · have hslug := h.2.2 c hc
    constructor <;> rintro rfl <;> revert hslug <;> decide
  · decide

lemma slug_comma (h : SlugPattern slug) : ',' ∉ slug.toList := by
  intro hmem
  have hslug := h.2.2 _ hmem
  revert hslug
  decide

lemma same_iff {x : List Char} :
    List.Forall₂ (fun c d => decide (col.fold c = col.fold d) = true) slug.toList x ↔
      col.Same slug (String.ofList x) := by
  simp only [decide_eq_true_eq]
  rw [Collation.Same, String.toList_ofList, ← forall₂_eq_eq_eq, forall₂_map_left_iff,
    forall₂_map_right_iff]

lemma comma_not_mem {x : List Char} (h : SlugPattern slug)
    (hx : col.Same slug (String.ofList x)) : ',' ∉ x := by
  intro hmem
  rw [Collation.Same, String.toList_ofList] at hx
  have hfold := hx ▸ mem_map_of_mem hmem
  obtain ⟨c, hc, heq⟩ := mem_map.mp hfold
  rw [col.comma c heq] at hc
  exact slug_comma h hc

lemma like_slug_iff (h : SlugPattern slug) (group : String) :
    like (fun c d => col.fold c = col.fold d)
      ("%," ++ slug ++ ",%").toList ("," ++ group ++ ",").toList ↔
      ∃ part ∈ Text.split ',' group, col.Same slug part := by
  have hpattern : ("%," ++ slug ++ ",%").toList =
      '%' :: ((',' :: (slug.toList ++ [','])) ++ ['%']) := by
    simp
  have htext : ("," ++ group ++ ",").toList = ',' :: (group.toList ++ [',']) := by simp
  rw [hpattern, htext, like_infix (slug_literal h)]
  constructor
  · rintro ⟨a, found, b, heq, hall⟩
    obtain ⟨d, y, hcomma, hrest, rfl⟩ := forall₂_cons_left_iff.mp hall
    obtain ⟨x, z, rfl, hx, hz⟩ := forall₂_append_left hrest
    obtain ⟨d', _, hcomma', hnil, rfl⟩ := forall₂_cons_left_iff.mp hz
    obtain rfl := forall₂_nil_left_iff.mp hnil
    obtain rfl := col.comma d (of_decide_eq_true hcomma).symm
    obtain rfl := col.comma d' (of_decide_eq_true hcomma').symm
    have hsame := same_iff.mp hx
    refine ⟨String.ofList x,
      mem_map_of_mem (Text.mem_splitOn_iff.mpr ⟨comma_not_mem h hsame, a, b, ?_⟩),
      hsame⟩
    rw [heq]
    simp
  · rintro ⟨part, hpart, hsame⟩
    obtain ⟨x, hx, rfl⟩ := mem_map.mp hpart
    obtain ⟨-, a, b, heq⟩ := Text.mem_splitOn_iff.mp hx
    refine ⟨a, ',' :: (x ++ [',']), b, by rw [heq]; simp, .cons (decide_eq_true rfl) ?_⟩
    exact rel_append (same_iff.mpr hsame) (.cons (decide_eq_true rfl) .nil)

lemma slug_ne_empty (h : SlugPattern slug) : slug ≠ "" := by
  rintro rfl
  exact absurd h.1 (by decide)

lemma hasReference_iff (h : SlugPattern slug) :
    hasPrivateGroupChannelReference col slug rows ↔ ∃ part ∈ parts rows, col.Same slug part := by
  simp only [hasPrivateGroupChannelReference, slug_ne_empty h, ne_eq,
    not_false_eq_true, decide_true,
    Bool.true_and, any_eq_true, like_slug_iff h, parts, mem_flatMap]
  constructor
  · rintro ⟨ch, hch, part, hpart, hsame⟩
    exact ⟨part, ⟨ch, hch, hpart⟩, hsame⟩
  · rintro ⟨part, ⟨ch, hch, hpart⟩, hsame⟩
    exact ⟨ch, hch, part, hpart, hsame⟩

lemma mem_names_iff (h : SlugPattern slug) :
    (∃ ch ∈ rows, slug ∈ names ch.group) ↔ ∃ part ∈ parts rows, Text.trimSpace part = slug := by
  simp only [names, parts, mem_filter, mem_map, mem_flatMap, decide_eq_true_eq]
  constructor
  · rintro ⟨ch, hch, ⟨part, hpart, htrim⟩, -⟩
    exact ⟨part, ⟨ch, hch, hpart⟩, htrim⟩
  · rintro ⟨part, ⟨ch, hch, hpart⟩, htrim⟩
    exact ⟨ch, hch, ⟨part, hpart, htrim⟩, slug_ne_empty h⟩

end

/-- **The answer is right** exactly if white space and the collation do not make a difference. -/
theorem reference_iff (col : Collation) (slug : {slug : String // SlugPattern slug})
    (rows : List Channel) :
    (hasPrivateGroupChannelReference col slug rows ↔ ∃ ch ∈ rows, ↑slug ∈ names ch.group) ↔
      ↑slug ∈ parts rows ∨ ((∃ part ∈ parts rows, part ≠ slug ∧ Text.trimSpace part = slug) ↔
          ∃ part ∈ parts rows, part ≠ slug ∧ col.Same slug part) := by
  obtain ⟨slug, h⟩ := slug
  have htrim := Text.trimSpace_of_forall fun c hc => isSpace_slug (h.2.2 c hc)
  rw [hasReference_iff h, mem_names_iff h]
  by_cases hmem : slug ∈ parts rows
  · exact iff_of_true (iff_of_true ⟨slug, hmem, rfl⟩ ⟨slug, hmem, htrim⟩) (Or.inl hmem)
  have hother : ∀ part ∈ parts rows, part ≠ slug := fun part hpart heq => hmem (heq ▸ hpart)
  rw [or_iff_right hmem]
  refine iff_comm.trans (iff_congr ?_ ?_) <;>
    exact exists_congr fun part => and_congr_right fun hpart =>
      (and_iff_right (hother part hpart)).symm

def sqlite : Collation where
  fold := Char.toLower
  comma c h := by
    unfold Char.toLower at h
    split at h
    · rename_i hc
      have hval := congrArg Char.val h
      grind
    · exact h

/-- A space hides a channel, and a capital letter shows one that is not routed. -/
theorem reference_misses : let channel (group : String) : List Channel := [⟨1, group, "m", 1, 0⟩]
    hasPrivateGroupChannelReference postgres "team" (channel "default, team") = false ∧
      "team" ∈ names "default, team" ∧
      hasPrivateGroupChannelReference sqlite "team" (channel "default,Team") = true ∧
      "team" ∉ names "default,Team" := by
  decide +kernel

end Tokilake.PrivateGroup.Reference
