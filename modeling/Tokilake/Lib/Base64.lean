import Mathlib.Data.List.GetD

/-! # Base64

Three bytes are four digits of six bits.

* `decode_encode`, `decodeRaw_encodeRaw`, `decodeRawURL_encodeRawURL`: the round trips. -/

namespace Tokilake.Lib.Base64

open List

def alphabet : List Char :=
  "ABCDEFGHIJKLMNOPQRSTUVWXYZabcdefghijklmnopqrstuvwxyz0123456789+/".toList

def digit (n : ℕ) : Char := alphabet.getD n '='

def value (c : Char) : Option ℕ := alphabet.findIdx? (· == c)

def digits (n : ℕ) : Char × Char × Char × Char :=
  (digit (n / 262144), digit (n / 4096 % 64), digit (n / 64 % 64), digit (n % 64))

def encode : List UInt8 → List Char
  | [] => []
  | [a] =>
    let (c₀, c₁, _, _) := digits (a.toNat * 65536)
    [c₀, c₁, '=', '=']
  | [a, b] =>
    let (c₀, c₁, c₂, _) := digits (a.toNat * 65536 + b.toNat * 256)
    [c₀, c₁, c₂, '=']
  | a :: b :: c :: bs =>
    let (c₀, c₁, c₂, c₃) := digits (a.toNat * 65536 + b.toNat * 256 + c.toNat)
    c₀ :: c₁ :: c₂ :: c₃ :: encode bs

def decodeOne (strict : Bool) (c₀ c₁ : Char) : Option (List UInt8) := do
  let v₀ ← value c₀
  let v₁ ← value c₁
  if strict = true ∧ v₁ % 16 ≠ 0 then none else some [UInt8.ofNat (v₀ * 4 + v₁ / 16)]

def decodeTwo (strict : Bool) (c₀ c₁ c₂ : Char) : Option (List UInt8) := do
  let v₀ ← value c₀
  let v₁ ← value c₁
  let v₂ ← value c₂
  if strict = true ∧ v₂ % 4 ≠ 0 then none
  else some [UInt8.ofNat (v₀ * 4 + v₁ / 16), UInt8.ofNat (v₁ % 16 * 16 + v₂ / 4)]

def decodeThree (c₀ c₁ c₂ c₃ : Char) : Option (List UInt8) := do
  let v₀ ← value c₀
  let v₁ ← value c₁
  let v₂ ← value c₂
  let v₃ ← value c₃
  some [UInt8.ofNat (v₀ * 4 + v₁ / 16), UInt8.ofNat (v₁ % 16 * 16 + v₂ / 4),
    UInt8.ofNat (v₂ % 4 * 64 + v₃)]

def decode (strict : Bool) : List Char → Option (List UInt8)
  | [] => some []
  | c₀ :: c₁ :: c₂ :: c₃ :: cs =>
    if c₃ = '=' ∧ cs = [] then
      if c₂ = '=' then decodeOne strict c₀ c₁ else decodeTwo strict c₀ c₁ c₂
    else do
      let group ← decodeThree c₀ c₁ c₂ c₃
      let rest ← decode strict cs
      some (group ++ rest)
  | _ => none

lemma length_encode : ∀ bs : List UInt8, (encode bs).length = (bs.length + 2) / 3 * 4
  | [] => rfl
  | [_] => by simp [encode, digits]
  | [_, _] => by simp [encode, digits]
  | a :: b :: c :: bs => by
    have ih := length_encode bs
    simp only [encode, digits, length_cons, ih]
    omega

lemma value_digit {n : ℕ} (h : n < 64) : value (digit n) = some n := by
  have hall : ∀ n < 64, value (digit n) = some n := by decide
  exact hall n h

lemma digit_ne_pad {n : ℕ} (h : n < 64) : digit n ≠ '=' := by
  have hall : ∀ n < 64, digit n ≠ '=' := by decide +kernel
  exact hall n h

lemma ofNat_eq {a : UInt8} {n : ℕ} (h : n = a.toNat) : UInt8.ofNat n = a := by
  rw [h, UInt8.ofNat_toNat]

lemma value_digits {n : ℕ} (h : n < 16777216) :
    value (digits n).1 = some (n / 262144) ∧ value (digits n).2.1 = some (n / 4096 % 64) ∧
      value (digits n).2.2.1 = some (n / 64 % 64) ∧ value (digits n).2.2.2 = some (n % 64) :=
  ⟨value_digit (by omega), value_digit (by omega), value_digit (by omega), value_digit (by omega)⟩

lemma decodeOne_digits (strict : Bool) (a : UInt8) :
    decodeOne strict (digits (a.toNat * 65536)).1 (digits (a.toNat * 65536)).2.1 = some [a] := by
  have ha := a.toNat_lt
  obtain ⟨h₀, h₁, -⟩ := value_digits (n := a.toNat * 65536) (by omega)
  simp only [decodeOne, h₀, h₁, Option.bind_eq_bind, Option.bind_some]
  rw [if_neg (by rintro ⟨-, hne⟩; omega), ofNat_eq]
  omega

lemma decodeTwo_digits (strict : Bool) (a b : UInt8) : let n := a.toNat * 65536 + b.toNat * 256
    decodeTwo strict (digits n).1 (digits n).2.1 (digits n).2.2.1 = some [a, b] := by
  intro n
  have ha := a.toNat_lt
  have hb := b.toNat_lt
  obtain ⟨h₀, h₁, h₂, -⟩ := value_digits (n := n) (by omega)
  simp only [decodeTwo, h₀, h₁, h₂, Option.bind_eq_bind, Option.bind_some]
  rw [if_neg (by rintro ⟨-, hne⟩; omega), ofNat_eq (a := a) (by omega),
    ofNat_eq (a := b) (by omega)]

lemma decodeThree_digits (a b c : UInt8) : let n := a.toNat * 65536 + b.toNat * 256 + c.toNat
    decodeThree (digits n).1 (digits n).2.1 (digits n).2.2.1 (digits n).2.2.2 = some [a, b, c] := by
  intro n
  have ha := a.toNat_lt
  have hb := b.toNat_lt
  have hc := c.toNat_lt
  obtain ⟨h₀, h₁, h₂, h₃⟩ := value_digits (n := n) (by omega)
  simp only [decodeThree, h₀, h₁, h₂, h₃, Option.bind_eq_bind, Option.bind_some]
  rw [ofNat_eq (a := a) (by omega), ofNat_eq (a := b) (by omega), ofNat_eq (a := c) (by omega)]

lemma decode_encode (strict : Bool) : ∀ bs : List UInt8, decode strict (encode bs) = some bs
  | [] => rfl
  | [a] => by exact decodeOne_digits strict a
  | [a, b] => by
    have h₂ : (a.toNat * 65536 + b.toNat * 256) / 64 % 64 < 64 := by omega
    have hpad : ¬ (digits (a.toNat * 65536 + b.toNat * 256)).2.2.1 = '=' := digit_ne_pad h₂
    simp only [encode, decode, and_self, if_true, if_neg hpad]
    exact decodeTwo_digits strict a b
  | a :: b :: c :: bs => by
    have ih := decode_encode strict bs
    have h₃ : (a.toNat * 65536 + b.toNat * 256 + c.toNat) % 64 < 64 := by omega
    have hpad : ¬ ((digits (a.toNat * 65536 + b.toNat * 256 + c.toNat)).2.2.2 = '=' ∧
        encode bs = []) := fun h => digit_ne_pad h₃ h.1
    simp only [encode, decode, if_neg hpad, decodeThree_digits, Option.bind_eq_bind,
      Option.bind_some, ih]
    rfl

/-! ### Without padding -/

def encodeRaw : List UInt8 → List Char
  | [] => []
  | [a] =>
    let (c₀, c₁, _, _) := digits (a.toNat * 65536)
    [c₀, c₁]
  | [a, b] =>
    let (c₀, c₁, c₂, _) := digits (a.toNat * 65536 + b.toNat * 256)
    [c₀, c₁, c₂]
  | a :: b :: c :: bs =>
    let (c₀, c₁, c₂, c₃) := digits (a.toNat * 65536 + b.toNat * 256 + c.toNat)
    c₀ :: c₁ :: c₂ :: c₃ :: encodeRaw bs

def decodeRaw : List Char → Option (List UInt8)
  | [] => some []
  | [_] => none
  | [c₀, c₁] => decodeOne false c₀ c₁
  | [c₀, c₁, c₂] => decodeTwo false c₀ c₁ c₂
  | c₀ :: c₁ :: c₂ :: c₃ :: cs => do
    let group ← decodeThree c₀ c₁ c₂ c₃
    let rest ← decodeRaw cs
    some (group ++ rest)

lemma length_encodeRaw : ∀ bs : List UInt8, (encodeRaw bs).length = (4 * bs.length + 2) / 3
  | [] => rfl
  | [_] => by simp [encodeRaw]
  | [_, _] => by simp [encodeRaw]
  | a :: b :: c :: bs => by
    have ih := length_encodeRaw bs
    simp only [encodeRaw, length_cons, ih]
    omega

lemma decodeRaw_encodeRaw : ∀ bs : List UInt8, decodeRaw (encodeRaw bs) = some bs
  | [] => rfl
  | [a] => decodeOne_digits false a
  | [a, b] => decodeTwo_digits false a b
  | a :: b :: c :: bs => by
    have ih := decodeRaw_encodeRaw bs
    simp only [encodeRaw, decodeRaw, decodeThree_digits, Option.bind_eq_bind, Option.bind_some, ih]
    rfl

lemma digit_mem_alphabet {n : ℕ} (h : n < 64) : digit n ∈ alphabet := by
  unfold digit
  rw [getD_eq_getElem _ _ h]
  exact getElem_mem h

lemma forall_mem_encodeRaw : ∀ bs : List UInt8, ∀ c ∈ encodeRaw bs, c ∈ alphabet
  | [] => by simp [encodeRaw]
  | [a] => by
    have ha := a.toNat_lt
    simp only [encodeRaw, digits, forall_mem_cons]
    exact ⟨digit_mem_alphabet (by omega), digit_mem_alphabet (by omega), forall_mem_nil _⟩
  | [a, b] => by
    have ha := a.toNat_lt
    have hb := b.toNat_lt
    simp only [encodeRaw, digits, forall_mem_cons]
    exact ⟨digit_mem_alphabet (by omega), digit_mem_alphabet (by omega),
      digit_mem_alphabet (by omega), forall_mem_nil _⟩
  | a :: b :: c :: bs => by
    have ha := a.toNat_lt
    have hb := b.toNat_lt
    have hc := c.toNat_lt
    simp only [encodeRaw, digits, forall_mem_cons]
    exact ⟨digit_mem_alphabet (by omega), digit_mem_alphabet (by omega),
      digit_mem_alphabet (by omega), digit_mem_alphabet (by omega), forall_mem_encodeRaw bs⟩

lemma length_of_decodeRaw :
    ∀ (cs : List Char) {bs : List UInt8}, decodeRaw cs = some bs → bs.length = 3 * cs.length / 4
  | [], bs, h => by
    cases h
    rfl
  | [_], bs, h => by cases h
  | [c₀, c₁], bs, h => by
    simp only [decodeRaw, decodeOne, Option.bind_eq_bind, Option.bind_eq_some_iff] at h
    obtain ⟨v₀, -, v₁, -, h⟩ := h
    cases h
    simp
  | [c₀, c₁, c₂], bs, h => by
    simp only [decodeRaw, decodeTwo, Option.bind_eq_bind, Option.bind_eq_some_iff] at h
    obtain ⟨v₀, -, v₁, -, v₂, -, h⟩ := h
    cases h
    simp
  | c₀ :: c₁ :: c₂ :: c₃ :: cs, bs, h => by
    simp only [decodeRaw, decodeThree, Option.bind_eq_bind, Option.bind_eq_some_iff] at h
    obtain ⟨group, ⟨v₀, -, v₁, -, v₂, -, v₃, -, hgroup⟩, rest, hrest, h⟩ := h
    have ih := length_of_decodeRaw cs hrest
    cases hgroup
    cases h
    simp only [length_append, length_cons, length_nil, ih]
    omega

/-! ### For URLs -/

def urlDigit (c : Char) : Char := if c = '+' then '-' else if c = '/' then '_' else c

def ofURLDigit (c : Char) : Char := if c = '-' then '+' else if c = '_' then '/' else c

variable (bs : List UInt8)

def encodeRawURL : List Char := (encodeRaw bs).map urlDigit

def isLineEnd (c : Char) : Bool := c == '\n' || c == '\r'

def withoutLineEnds (cs : List Char) : List Char := cs.filter fun c => !isLineEnd c

def decodeRawURL (cs : List Char) : Option (List UInt8) :=
  if '+' ∈ cs ∨ '/' ∈ cs then none else decodeRaw ((withoutLineEnds cs).map ofURLDigit)

lemma length_encodeRawURL : (encodeRawURL bs).length = (4 * bs.length + 2) / 3 := by
  rw [encodeRawURL, length_map, length_encodeRaw]

lemma forall_mem_encodeRawURL : ∀ c ∈ encodeRawURL bs, c ∈ alphabet.map urlDigit := by
  intro c hc
  obtain ⟨d, hd, rfl⟩ := mem_map.mp hc
  exact mem_map_of_mem (forall_mem_encodeRaw bs d hd)

lemma urlDigit_plain {c : Char} (h : c ∈ alphabet.map urlDigit) :
    c.toNat < 128 ∧ isLineEnd c = false ∧ c ≠ '+' ∧ c ≠ '/' := by
  have hall : (alphabet.map urlDigit).all (fun c =>
      c.toNat < 128 ∧ isLineEnd c = false ∧ c ≠ '+' ∧ c ≠ '/') = true := by
    decide
  exact of_decide_eq_true (all_eq_true.mp hall c h)

lemma ofURLDigit_urlDigit {c : Char} (h : c ∈ alphabet) : ofURLDigit (urlDigit c) = c := by
  have hall : alphabet.all (fun c => ofURLDigit (urlDigit c) = c) = true := by decide
  exact of_decide_eq_true (all_eq_true.mp hall c h)

lemma withoutLineEnds_encodeRawURL : withoutLineEnds (encodeRawURL bs) = encodeRawURL bs := by
  refine filter_eq_self.mpr fun c hc => ?_
  rw [(urlDigit_plain (forall_mem_encodeRawURL bs c hc)).2.1]
  rfl

lemma decodeRawURL_encodeRawURL : decodeRawURL (encodeRawURL bs) = some bs := by
  have hplain := fun c hc => urlDigit_plain (forall_mem_encodeRawURL bs c hc)
  have hback : (encodeRawURL bs).map ofURLDigit = encodeRaw bs := by
    rw [encodeRawURL, map_map]
    exact (map_congr_left fun c hc =>
      ofURLDigit_urlDigit (forall_mem_encodeRaw bs c hc)).trans (map_id _)
  unfold decodeRawURL
  rw [withoutLineEnds_encodeRawURL, hback, if_neg, decodeRaw_encodeRaw]
  rintro (h | h)
  · exact (hplain _ h).2.2.1 rfl
  · exact (hplain _ h).2.2.2 rfl

lemma length_of_decodeRawURL {cs : List Char} {bs : List UInt8} (h : decodeRawURL cs = some bs) :
    bs.length = 3 * (withoutLineEnds cs).length / 4 := by
  unfold decodeRawURL at h
  split at h
  · cases h
  · rw [length_of_decodeRaw _ h, length_map]

end Tokilake.Lib.Base64
