import Mathlib.Tactic.Ring

/-! # Numbers as little-endian bytes

`toLE k n` are the `k` low bytes of `n`, the lowest first, and `fromLE` is the number some bytes
spell.

* `fromLE_toLE`: back again. -/

namespace Tokilake.Lib.LittleEndian

def toLE : ℕ → ℕ → List UInt8
  | 0, _ => []
  | k + 1, n => UInt8.ofNat n :: toLE k (n / 256)

def fromLE : List UInt8 → ℕ
  | [] => 0
  | b :: bs => b.toNat + 256 * fromLE bs

@[simp] lemma length_toLE (k n : ℕ) : (toLE k n).length = k := by
  induction k generalizing n with
  | zero => rfl
  | succ k ih => simp [toLE, ih]

lemma fromLE_toLE {k n : ℕ} (h : n < 256 ^ k) : fromLE (toLE k n) = n := by
  induction k generalizing n with
  | zero => simp_all [toLE, fromLE]
  | succ k ih =>
    have hdiv : n / 256 < 256 ^ k := by omega
    rw [toLE, fromLE, ih hdiv, UInt8.toNat_ofNat']
    omega

end Tokilake.Lib.LittleEndian
