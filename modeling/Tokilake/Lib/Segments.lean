import Mathlib.Data.List.Basic

/-! # Exact reads from a source that delivers in segments

One read takes what the next segment has, as far as there is room; no bytes are the end.

* `readExact_ok`, `readExact_error`: enough bytes, and too few. -/

namespace Tokilake.Lib.Segments

open List

variable {β : Type*}

structure Segmented (segments : List (List β)) (items : List β) : Prop where
  flatten : segments.flatten = items
  nonempty : ∀ seg ∈ segments, seg ≠ []

/-- Reads until there are `n` items; `.error` has those that came before the source ended. -/
def readExact (n : ℕ) : List (List β) → Except (List β) (List β × List (List β))
  | [] => if n = 0 then .ok ([], []) else .error []
  | seg :: segs =>
    if n = 0 then .ok ([], seg :: segs)
    else if seg.isEmpty then .error []
    else if seg.length ≤ n then
      match readExact (n - seg.length) segs with
      | .ok (items, rest) => .ok (seg ++ items, rest)
      | .error items => .error (seg ++ items)
    else .ok (seg.take n, seg.drop n :: segs)

variable {n : ℕ} {seg items : List β} {segs : List (List β)}

lemma segmented_nil : Segmented ([] : List (List β)) [] := ⟨rfl, nofun⟩

lemma segmented_cons (hseg : seg ≠ []) (h : Segmented segs items) :
    Segmented (seg :: segs) (seg ++ items) := by
  refine ⟨by rw [flatten_cons, h.flatten], ?_⟩
  rw [forall_mem_cons]
  exact ⟨hseg, h.nonempty⟩

lemma Segmented.tail (h : Segmented (seg :: segs) items) :
    seg ≠ [] ∧ ∃ rest, items = seg ++ rest ∧ Segmented segs rest := by
  obtain ⟨hflat, hne⟩ := h
  rw [forall_mem_cons] at hne
  exact ⟨hne.1, segs.flatten, hflat.symm, rfl, hne.2⟩

/-- **With enough items to come a read gets the first `n`**, and leaves the others. -/
theorem readExact_ok (h : Segmented segs items) (hn : n ≤ items.length) :
    ∃ rest, readExact n segs = .ok (items.take n, rest) ∧ Segmented rest (items.drop n) := by
  induction segs generalizing n items with
  | nil =>
    obtain rfl := h.flatten
    obtain rfl : n = 0 := by simpa using hn
    exact ⟨[], rfl, segmented_nil⟩
  | cons seg segs ih =>
    obtain ⟨hseg, rest, rfl, hrest⟩ := h.tail
    by_cases hzero : n = 0
    · subst hzero
      exact ⟨seg :: segs, rfl, h⟩
    rw [readExact, if_neg hzero, if_neg (by simpa using hseg)]
    by_cases hle : seg.length ≤ n
    · -- the whole segment is taken, and the rest comes from the others
      rw [length_append] at hn
      obtain ⟨left, hread, hleft⟩ := ih hrest (n := n - seg.length) (by omega)
      refine ⟨left, ?_, ?_⟩
      · rw [if_pos hle, hread, take_append, take_of_length_le hle]
      · rw [drop_append, drop_eq_nil_of_le hle, nil_append]
        exact hleft
    · refine ⟨seg.drop n :: segs, ?_, ?_⟩
      · rw [if_neg hle, take_append_of_le_length (by omega)]
      · rw [drop_append_of_le_length (by omega)]
        refine segmented_cons (fun hnil => ?_) hrest
        rw [drop_eq_nil_iff] at hnil
        omega

/-- **Without enough items a read fails**, and has read all of them. -/
theorem readExact_error (h : Segmented segs items) (hn : items.length < n) :
    readExact n segs = .error items := by
  induction segs generalizing n items with
  | nil =>
    obtain rfl := h.flatten
    exact if_neg (by omega)
  | cons seg segs ih =>
    obtain ⟨hseg, rest, rfl, hrest⟩ := h.tail
    rw [length_append] at hn
    rw [readExact, if_neg (by omega), if_neg (by simpa using hseg), if_pos (by omega),
      ih hrest (by omega)]

end Tokilake.Lib.Segments
