import Mathlib.Data.List.Basic

/-! # Delimited lines from a buffered reader

A byte source delivers reads of any sizes and then one error forever.  `readBytes d` returns
everything up to the next delimiter; it depends on the *pending* bytes only (`readBytes_line`,
`readBytes_end`). -/

namespace Tokilake.Lib.Lines

open List

variable {β ε : Type*} [DecidableEq β] {d : β}

/-! ### Lines of a byte sequence -/

def takeLine (d : β) : List β → Option (List β × List β)
  | [] => none
  | b :: bs => if b = d then some ([b], bs) else (takeLine d bs).map fun lr => (b :: lr.1, lr.2)

def splitLines (d : β) : List β → List (List β) × List β
  | [] => ([], [])
  | b :: bs =>
    if b = d then ([b] :: (splitLines d bs).1, (splitLines d bs).2)
    else match splitLines d bs with
      | ([], tl) => ([], b :: tl)
      | (l :: ls, tl) => ((b :: l) :: ls, tl)

variable {bs l r : List β}

lemma takeLine_append (h : takeLine d bs = some (l, r)) (cs : List β) :
    takeLine d (bs ++ cs) = some (l, r ++ cs) := by
  induction bs generalizing l with
  | nil => simp [takeLine] at h
  | cons b bs ih =>
    simp only [cons_append, takeLine] at h ⊢
    split_ifs at h ⊢ with hb
    · cases h; rfl
    · obtain ⟨⟨l', r'⟩, h', he⟩ := Option.map_eq_some_iff.mp h
      cases he
      rw [ih h']; rfl

lemma takeLine_eq (h : takeLine d bs = some (l, r)) : bs = l ++ r ∧ l ≠ [] := by
  induction bs generalizing l with
  | nil => simp [takeLine] at h
  | cons b bs ih =>
    simp only [takeLine] at h
    split_ifs at h with hb
    · cases h; simp
    · obtain ⟨⟨l', r'⟩, h', he⟩ := Option.map_eq_some_iff.mp h
      cases he
      simp [(ih h').1]

lemma length_lt_of_takeLine (h : takeLine d bs = some (l, r)) : r.length < bs.length := by
  obtain ⟨rfl, hl⟩ := takeLine_eq h
  have := length_pos_iff.mpr hl
  rw [length_append]; omega

lemma splitLines_of_takeLine (h : takeLine d bs = some (l, r)) :
    splitLines d bs = (l :: (splitLines d r).1, (splitLines d r).2) := by
  induction bs generalizing l with
  | nil => simp [takeLine] at h
  | cons b bs ih =>
    simp only [takeLine] at h
    split_ifs at h with hb
    · cases h; simp [splitLines, hb]
    · obtain ⟨⟨l', r'⟩, h', he⟩ := Option.map_eq_some_iff.mp h
      cases he
      simp [splitLines, hb, ih h']

lemma splitLines_of_takeLine_none {bs : List β} (h : takeLine d bs = none) :
    splitLines d bs = ([], bs) := by
  induction bs with
  | nil => rfl
  | cons b bs ih =>
    simp only [takeLine] at h
    split_ifs at h with hb
    simp [splitLines, hb, ih (Option.map_eq_none_iff.mp h)]

def IsLine (d : β) (l : List β) : Prop := ∃ text, d ∉ text ∧ l = text ++ [d]

lemma takeLine_text {text : List β} (h : d ∉ text) (rest : List β) :
    takeLine d (text ++ d :: rest) = some (text ++ [d], rest) := by
  induction text with
  | nil => simp [takeLine]
  | cons b text ih =>
    obtain ⟨hb, htext⟩ := ne_and_not_mem_of_not_mem_cons h
    simp [takeLine, Ne.symm hb, ih htext]

lemma takeLine_eq_none_iff {bs : List β} : takeLine d bs = none ↔ d ∉ bs := by
  induction bs with
  | nil => simp [takeLine]
  | cons b bs ih =>
    by_cases hb : b = d
    · simp [takeLine, hb]
    · simp [takeLine, hb, ih, Ne.symm hb]

lemma splitLines_cons_line {l : List β} (h : IsLine d l) (bs : List β) :
    splitLines d (l ++ bs) = (l :: (splitLines d bs).1, (splitLines d bs).2) := by
  obtain ⟨text, htext, rfl⟩ := h
  rw [append_assoc]
  exact splitLines_of_takeLine (takeLine_text htext bs)

lemma splitLines_flatten {ls : List (List β)} (h : ∀ l ∈ ls, IsLine d l) :
    splitLines d ls.flatten = (ls, []) := by
  induction ls with
  | nil => rfl
  | cons l ls ih =>
    rw [flatten_cons, splitLines_cons_line (h l mem_cons_self),
      ih fun m hm => h m (mem_cons_of_mem l hm)]

lemma flatten_splitLines (d : β) (bs : List β) :
    (splitLines d bs).1.flatten ++ (splitLines d bs).2 = bs := by
  induction bs with
  | nil => rfl
  | cons b bs ih =>
    rw [splitLines]
    split_ifs with hb
    · simpa using ih
    rcases hs : splitLines d bs with ⟨_ | ⟨l, ls⟩, tl⟩ <;>
    · rw [hs] at ih
      simpa using ih

lemma not_mem_splitLines_tail (d : β) (bs : List β) : d ∉ (splitLines d bs).2 := by
  induction bs with
  | nil => simp [splitLines]
  | cons b bs ih =>
    rw [splitLines]
    split_ifs with hb
    · exact ih
    rcases hs : splitLines d bs with ⟨_ | ⟨l, ls⟩, tl⟩
    · rw [hs] at ih
      simpa [Ne.symm hb] using ih
    · rw [hs] at ih
      exact ih

lemma splitLines_append (d : β) (bs cs : List β) : splitLines d (bs ++ cs) =
      ((splitLines d bs).1 ++ (splitLines d ((splitLines d bs).2 ++ cs)).1,
        (splitLines d ((splitLines d bs).2 ++ cs)).2) := by
  induction bs with
  | nil => rfl
  | cons b bs ih =>
    by_cases hb : b = d
    · simp only [cons_append, splitLines, if_pos hb, ih]
    simp only [cons_append, splitLines, if_neg hb, ih]
    rcases splitLines d bs with ⟨_ | ⟨l, ls⟩, tl⟩
    · simp [splitLines, hb]
    · rfl

/-! ### The buffered reader -/

/-- The bytes read ahead, the reads still to come, and the error the source ends with. -/
structure Reader (β ε : Type*) where
  buffer : List β
  reads : List (List β)
  ending : ε

namespace Reader

/-- The bytes that are still to come, however they are cut. -/
def pending (r : Reader β ε) : List β := r.buffer ++ r.reads.flatten

def lines (d : β) (r : Reader β ε) : List (List β) := (splitLines d r.pending).1

end Reader

def fill (d : β) (ending : ε) : List (List β) → List β → Except (List β × ε) (List β) × Reader β ε
  | [], buffer =>
    match takeLine d buffer with
    | some (l, rest) => (.ok l, ⟨rest, [], ending⟩)
    | none => (.error (buffer, ending), ⟨[], [], ending⟩)
  | bs :: reads, buffer =>
    match takeLine d buffer with
    | some (l, rest) => (.ok l, ⟨rest, bs :: reads, ending⟩)
    | none => fill d ending reads (buffer ++ bs)

def readBytes (d : β) (r : Reader β ε) : Except (List β × ε) (List β) × Reader β ε :=
  fill d r.ending r.reads r.buffer

lemma fill_line {ending : ε} {l rest : List β} : ∀ {reads : List (List β)} {buffer : List β},
    takeLine d (buffer ++ reads.flatten) = some (l, rest) →
      ∃ r', fill d ending reads buffer = (.ok l, r') ∧ r'.pending = rest ∧ r'.ending = ending
  | [], buffer, h => by
    rw [flatten_nil, append_nil] at h
    simp only [fill, h]
    exact ⟨_, rfl, by simp [Reader.pending], rfl⟩
  | bs :: reads, buffer, h => by
    rw [fill]
    rcases hb : takeLine d buffer with _ | ⟨l', rest'⟩
    · exact fill_line (by simpa using h)
    · rw [takeLine_append hb] at h
      cases h
      exact ⟨_, rfl, rfl, rfl⟩

lemma fill_end {ending : ε} : ∀ {reads : List (List β)} {buffer : List β},
    takeLine d (buffer ++ reads.flatten) = none →
      fill d ending reads buffer = (.error (buffer ++ reads.flatten, ending), ⟨[], [], ending⟩)
  | [], buffer, h => by
    rw [flatten_nil, append_nil] at h ⊢
    simp only [fill, h]
  | bs :: reads, buffer, h => by
    rw [fill]
    rcases hb : takeLine d buffer with _ | ⟨l', rest'⟩
    · rw [flatten_cons, ← append_assoc] at h ⊢
      exact fill_end h
    · rw [takeLine_append hb] at h
      cases h

lemma readBytes_line {r : Reader β ε} {l rest : List β}
    (h : takeLine d r.pending = some (l, rest)) :
    ∃ r', readBytes d r = (.ok l, r') ∧ r'.pending = rest ∧ r'.ending = r.ending :=
  fill_line h

/-- **No line is pending**: the source's error is returned, with the bytes that were left. -/
theorem readBytes_end {r : Reader β ε} (h : takeLine d r.pending = none) :
    readBytes d r = (.error (r.pending, r.ending), ⟨[], [], r.ending⟩) :=
  fill_end h

lemma lines_eq_nil_iff {r : Reader β ε} : r.lines d = [] ↔ takeLine d r.pending = none := by
  unfold Reader.lines
  rcases h : takeLine d r.pending with _ | ⟨l, rest⟩
  · simp [splitLines_of_takeLine_none h]
  · simp [splitLines_of_takeLine h]

lemma readBytes_cases (d : β) (r : Reader β ε) :
    (r.lines d = [] ∧ readBytes d r = (.error (r.pending, r.ending), ⟨[], [], r.ending⟩)) ∨
    ∃ l r', r.lines d = l :: r'.lines d ∧ readBytes d r = (.ok l, r') ∧ r'.ending = r.ending ∧
      r'.pending.length < r.pending.length := by
  rcases h : takeLine d r.pending with _ | ⟨l, rest⟩
  · exact Or.inl ⟨lines_eq_nil_iff.mpr h, readBytes_end h⟩
  · obtain ⟨r', hr, hp, he⟩ := readBytes_line h
    refine Or.inr ⟨l, r', ?_, hr, he, by rw [hp]; exact length_lt_of_takeLine h⟩
    rw [Reader.lines, splitLines_of_takeLine h, Reader.lines, hp]

lemma readBytes_lt {d : β} {r r' : Reader β ε} {l : List β} (h : readBytes d r = (.ok l, r')) :
    r'.pending.length < r.pending.length := by
  rcases readBytes_cases d r with ⟨-, h'⟩ | ⟨l', r'', -, h', -, hlt⟩
  · rw [h] at h'; cases h'
  · rw [h] at h'; cases h'; exact hlt

end Tokilake.Lib.Lines
