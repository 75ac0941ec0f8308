import Mathlib.Data.List.Basic

/-! # White space at the ends of a byte string

White space is what Unicode calls so.

* `trimSpace_object`, `newline_not_mem_utf8`. -/

namespace Tokilake.Lib.Bytes

def ascii (s : String) : List UInt8 := s.toList.map fun c => UInt8.ofNat c.toNat

def spaces : List (List UInt8) :=
  [[0x09], [0x0a], [0x0b], [0x0c], [0x0d], [0x20], [0xc2, 0x85], [0xc2, 0xa0], [0xe1, 0x9a, 0x80],
    [0xe2, 0x80, 0x80], [0xe2, 0x80, 0x81], [0xe2, 0x80, 0x82], [0xe2, 0x80, 0x83],
    [0xe2, 0x80, 0x84], [0xe2, 0x80, 0x85], [0xe2, 0x80, 0x86], [0xe2, 0x80, 0x87],
    [0xe2, 0x80, 0x88], [0xe2, 0x80, 0x89], [0xe2, 0x80, 0x8a], [0xe2, 0x80, 0xa8],
    [0xe2, 0x80, 0xa9], [0xe2, 0x80, 0xaf], [0xe2, 0x81, 0x9f], [0xe3, 0x80, 0x80]]

def stripPrefixes (seqs : List (List UInt8)) : ℕ → List UInt8 → List UInt8
  | 0, bs => bs
  | fuel + 1, bs =>
    match seqs.find? fun w => w.isPrefixOf bs with
    | none => bs
    | some w => stripPrefixes seqs fuel (bs.drop w.length)

def trimSpace (bs : List UInt8) : List UInt8 :=
  let front := stripPrefixes spaces bs.length bs
  (stripPrefixes (spaces.map List.reverse) front.length front.reverse).reverse

lemma trimSpace_object (text : List UInt8) :
    trimSpace (0x7b :: text ++ [0x7d, 0x0a]) = 0x7b :: text ++ [0x7d] := by
  have hfront : ∀ fuel rest, stripPrefixes spaces fuel (0x7b :: rest) = 0x7b :: rest := by
    intro fuel rest
    cases fuel <;> simp [stripPrefixes, spaces]
  have hback : ∀ fuel rest,
      stripPrefixes (spaces.map List.reverse) fuel (0x7d :: rest) = 0x7d :: rest := by
    intro fuel rest
    cases fuel <;> simp [stripPrefixes, spaces]
  have hnewline : ∀ fuel rest, stripPrefixes (spaces.map List.reverse) (fuel + 1) (0x0a :: rest) =
        stripPrefixes (spaces.map List.reverse) fuel rest := by
    simp [stripPrefixes, spaces]
  have hlength : (0x7b :: text ++ [0x7d, 0x0a]).length = text.length + 2 + 1 := by simp
  have hreverse : (0x7b :: text ++ [0x7d, 0x0a]).reverse =
      0x0a :: 0x7d :: (0x7b :: text).reverse := by
    simp
  rw [trimSpace, List.cons_append, hfront, ← List.cons_append, hlength, hreverse, hnewline, hback]
  simp

/-! ### Newlines in UTF-8 -/

lemma ofNat_ne_newline {n : ℕ} (hn : n % 256 ≠ 10) : (0x0a : UInt8) ≠ UInt8.ofNat n := by
  intro h
  have hn' := congrArg UInt8.toNat h
  simp at hn'
  omega

lemma newline_not_mem_utf8 {c : Char} (hc : c.toNat ≠ 0x0a) :
    (0x0a : UInt8) ∉ String.utf8EncodeChar c := by
  have hv : c.val.toNat ≠ 0x0a := hc
  unfold String.utf8EncodeChar
  generalize c.val.toNat = v at hv
  dsimp only
  -- one case for each length of the encoding
  split_ifs
  · exact List.not_mem_cons_of_ne_of_not_mem (ofNat_ne_newline (by omega)) List.not_mem_nil
  all_goals
    simp only [List.mem_cons, List.not_mem_nil, or_false, not_or]
    repeat' apply And.intro
    all_goals exact ofNat_ne_newline (by omega)

end Tokilake.Lib.Bytes
