import Mathlib.Data.Nat.Digits.Lemmas
import Mathlib.Data.List.TakeWhile

/-! # Short ids for lists of numbers

The algorithm of the sqids library: the first symbol of an id turns the alphabet; the first of the
turned one separates the numbers, the others are digits.  An id that is too short is filled up with
shuffled alphabets, and one that is blocked is tried again with the next turn.

* `encode`, `decode`: the two directions. -/

namespace Tokilake.Lib.Sqids

open List

variable {α : Type} (ord : α → ℕ)

/-! ### Alphabets -/

variable (l : List α)

/-- One step of the shuffle: position `i` is swapped with one that depends on both ends. -/
def exchange (i : ℕ) : List α :=
  match l[i]?, l[l.length - 1 - i]? with
  | some a, some b => l.swap i ((i * (l.length - 1 - i) + ord a + ord b) % l.length)
  | _, _ => l

def shuffle : List α := (range (l.length - 1)).foldl (exchange ord) l

/-- The alphabet that starts at `offset`. -/
def turn (offset : ℕ) : List α := l.drop offset ++ l.take offset

/-! ### Numbers -/

/-- A number in the base of the digits, the highest first. -/
def toID (digits : List α) (num : ℕ) : List α :=
  (if num = 0 then [0] else Nat.digits digits.length num).reverse.filterMap (digits[·]?)

/-- The number that `toID` writes. -/
def toNumber [DecidableEq α] (digits id : List α) : ℕ :=
  id.foldl (fun n a => n * digits.length + digits.idxOf a) 0

/-! ### Ids -/

/-- The numbers with a separator between them, and the alphabet that is left. -/
def encodeNumbers (l : List α) : List ℕ → List α × List α
  | [] => ([], l)
  | [num] => (toID l.tail num, l)
  | num :: nums =>
    let (id, last) := encodeNumbers (shuffle ord l) nums
    (toID l.tail num ++ l.take 1 ++ id, last)

/-- `missing` symbols of ever newly shuffled alphabets. -/
def fill : ℕ → List α → ℕ → List α
  | 0, _, _ => []
  | fuel + 1, l, missing =>
    if missing = 0 then []
    else
      let l := shuffle ord l
      l.take missing ++ fill fuel l (missing - l.length)

def offset (l : List α) (nums : List ℕ) (increment : ℕ) : ℕ :=
  let sum := nums.zipIdx.foldl
    (fun n p => n + p.2 + (l[p.1 % l.length]?.map ord).getD 0) nums.length
  (sum % l.length + increment) % l.length

def pad (minLength : ℕ) (id last : List α) : List α :=
  if id.length < minLength then
    let missing := minLength - (id.length + 1)
    id ++ last.take 1 ++ fill ord missing last missing
  else id

/-- The id with the alphabet turned `increment` steps further. -/
def attempt (l : List α) (minLength : ℕ) (nums : List ℕ) (increment : ℕ) : List α :=
  let turned := turn l (offset ord l nums increment)
  let (id, last) := encodeNumbers ord turned.reverse nums
  pad ord minLength (turned.take 1 ++ id) last

def encode (l : List α) (minLength : ℕ) (blocked : List α → Bool) (nums : List ℕ) :
    Option (List α) :=
  if nums = [] then some []
  else ((range (l.length + 1)).map (attempt ord l minLength nums)).find? fun id => !blocked id

section
variable [DecidableEq α]

def decodeNumbers : ℕ → List α → List α → List ℕ
  | 0, _, _ => []
  | fuel + 1, l, id =>
    let chunk := id.takeWhile (· ∉ l.take 1)
    if chunk = [] then []
    else
      toNumber l.tail chunk :: match id.dropWhile (· ∉ l.take 1) with
        | [] => []
        | _ :: rest => decodeNumbers fuel (shuffle ord l) rest

def decode (l id : List α) : List ℕ :=
  match id with
  | [] => []
  | symbol :: rest =>
    if ∀ a ∈ id, a ∈ l then
      decodeNumbers ord rest.length (turn l (l.idxOf symbol)).reverse rest
    else []

end

end Tokilake.Lib.Sqids
