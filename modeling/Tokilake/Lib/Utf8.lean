import Mathlib.Data.List.Basic
import Mathlib.Algebra.Order.Ring.Nat

/-! # Reading bytes as UTF-8, with losses

`lossy` reads any bytes as text, with U+FFFD for what is not UTF-8.

* `lossy_encode`: encoded text is read back;
* `sliceTo_eq_none_iff`: when a cut is inside a character. -/

namespace Tokilake.Lib.Utf8

open List

abbrev Bytes := List UInt8

def encode (text : List Char) : Bytes := text.flatMap String.utf8EncodeChar

/-- The bytes that may follow a first byte, and how many bytes do. -/
def lead (b : UInt8) : UInt8 × UInt8 × ℕ :=
  if b < 0xc2 then (0x80, 0xbf, 0)
  else if b < 0xe0 then (0x80, 0xbf, 1)
  else if b = 0xe0 then (0xa0, 0xbf, 2)
  else if b = 0xed then (0x80, 0x9f, 2)
  else if b < 0xf0 then (0x80, 0xbf, 2)
  else if b = 0xf0 then (0x90, 0xbf, 3)
  else if b < 0xf4 then (0x80, 0xbf, 3)
  else if b = 0xf4 then (0x80, 0x8f, 3)
  else (0x80, 0xbf, 0)

def continued : UInt8 × UInt8 × ℕ → Bytes → ℕ
  | (low, high, n + 1), b :: bs =>
    if low ≤ b ∧ b ≤ high then 1 + continued (0x80, 0xbf, n) bs else 0
  | _, _ => 0

def lossy : Bytes → List Char
  | [] => []
  | b :: bs =>
    match (b :: bs).toByteArray.utf8DecodeChar? 0 with
    | some c => c :: lossy (bs.drop (c.utf8Size - 1))
    | none => '�' :: lossy (bs.drop (continued (lead b) bs))
termination_by bs => bs.length

lemma lossy_char (c : Char) (bs : Bytes) :
    lossy (String.utf8EncodeChar c ++ bs) = c :: lossy bs := by
  have hlength := String.length_utf8EncodeChar c
  have hdecode : (String.utf8EncodeChar c ++ bs).toByteArray.utf8DecodeChar? 0 = some c := by
    rw [toByteArray_append, ByteArray.utf8DecodeChar?_utf8EncodeChar_append]
  cases henc : String.utf8EncodeChar c with
  | nil =>
    have hpos := c.utf8Size_pos
    rw [henc, length_nil] at hlength
    omega
  | cons b rest =>
    rw [henc, cons_append] at hdecode
    rw [henc, length_cons] at hlength
    have hdrop : (rest ++ bs).drop (c.utf8Size - 1) = bs := drop_left' (by omega)
    rw [cons_append, lossy, hdecode]
    exact congrArg (fun bs => c :: lossy bs) hdrop

lemma lossy_encode (text : List Char) : lossy (encode text) = text := by
  induction text with
  | nil => simp [encode, lossy]
  | cons c text ih =>
    rw [encode, flatMap_cons, lossy_char]
    exact congrArg (c :: ·) ih

/-! ### Slices -/

def size (text : List Char) : ℕ := (text.map Char.utf8Size).sum

def sliceTo : ℕ → List Char → Option (List Char)
  | 0, _ => some []
  | _, [] => none
  | n, c :: text => if c.utf8Size ≤ n then (sliceTo (n - c.utf8Size) text).map (c :: ·) else none

lemma sliceTo_eq_none_iff {n : ℕ} {text : List Char} (hsize : n ≤ size text) :
    sliceTo n text = none ↔
      ∃ before c after, text = before ++ c :: after ∧ size before < n ∧
        n < size before + c.utf8Size := by
  induction text generalizing n with
  | nil =>
    have hzero : n = 0 := Nat.le_zero.mp hsize
    subst hzero
    simp [sliceTo]
  | cons c text ih =>
    rcases Nat.eq_zero_or_pos n with rfl | hpos
    · simp [sliceTo]
    have hcons : size (c :: text) = c.utf8Size + size text := by simp [size]
    have hstep : sliceTo n (c :: text) =
        if c.utf8Size ≤ n then (sliceTo (n - c.utf8Size) text).map (c :: ·) else none := by
      cases n with
      | zero => omega
      | succ n => rfl
    rw [hstep]
    split_ifs with hfits
    · rw [Option.map_eq_none_iff, ih (by omega)]
      constructor
      · rintro ⟨before, d, after, rfl, hlo, hhi⟩
        refine ⟨c :: before, d, after, rfl, ?_⟩
        have hbefore : size (c :: before) = c.utf8Size + size before := by simp [size]
        omega
      · rintro ⟨before, d, after, htext, hlo, hhi⟩
        -- the character lies behind the first one, which fits
        cases before with
        | nil =>
          obtain ⟨rfl, -⟩ := cons_eq_cons.mp htext
          have hnil : size [] = 0 := rfl
          omega
        | cons e before =>
          obtain ⟨rfl, rfl⟩ := cons_eq_cons.mp htext
          have hbefore : size (c :: before) = c.utf8Size + size before := by simp [size]
          exact ⟨before, d, after, rfl, by omega, by omega⟩
    · exact ⟨fun _ => ⟨[], c, text, rfl, by simpa [size] using hpos, by simpa [size] using hfits⟩,
        fun _ => rfl⟩

end Tokilake.Lib.Utf8
