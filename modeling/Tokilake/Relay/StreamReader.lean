import Tokilake.Lib.Bytes
import Tokilake.Lib.Lines

/-! # The lines of an upstream stream

`processLines` hands each line to a handler.  What follows the last newline comes together with the
read error, and is dropped.

* `complete_iff`: when the handler has seen the whole stream. -/

namespace Tokilake.Relay.StreamReader

open Lib.Lines Lib.Bytes List

def newline : UInt8 := 0x0a

def streamClosed : List UInt8 := ascii "stream_closed"

/-- A handler has a state of its own, and leaves a line behind, or nil. -/
structure Stream (σ : Type) where
  noTrim : Bool
  handlerPrefix : σ → List UInt8 → Option (List UInt8) × σ

variable {σ ε : Type} (stream : Stream σ)

/-- The line that is handed on, unless it is blank. -/
def Stream.prepare (rawLine : List UInt8) : Option (List UInt8) :=
  if stream.noTrim then some rawLine
  else if trimSpace rawLine = [] then none else some (trimSpace rawLine)

/-- The lines handed to the handler, and the error reported after them. -/
def processLines (s : σ) (r : Reader UInt8 ε) : List (List UInt8) × Option ε :=
  match _ : readBytes newline r with
  | (.error (_, readErr), _) => ([], some readErr)
  | (.ok rawLine, r') =>
    match stream.prepare rawLine with
    | none => processLines s r'
    | some line =>
      if (stream.handlerPrefix s line).1 = some streamClosed then ([line], none)
      else
        let rest := processLines (stream.handlerPrefix s line).2 r'
        (line :: rest.1, rest.2)
termination_by r.pending.length
decreasing_by all_goals exact readBytes_lt ‹_›

/-! ### What should be handled -/

/-- The lines up to the one that closes the stream, and whether there is one. -/
def handled (s : σ) : List (List UInt8) → List (List UInt8) × Bool
  | [] => ([], false)
  | rawLine :: rawLines =>
    match stream.prepare rawLine with
    | none => handled s rawLines
    | some line =>
      if (stream.handlerPrefix s line).1 = some streamClosed then ([line], true)
      else
        let rest := handled (stream.handlerPrefix s line).2 rawLines
        (line :: rest.1, rest.2)

/-- A body has a last line also without a newline. -/
def bodyLines (body : List UInt8) : List (List UInt8) :=
  (splitLines newline body).1 ++ [(splitLines newline body).2].filter (· ≠ [])

def outcome (ending : ε) (x : List (List UInt8) × Bool) : List (List UInt8) × Option ε :=
  (x.1, if x.2 then none else some ending)

def Complete (s : σ) (r : Reader UInt8 ε) : Prop :=
  processLines stream s r = outcome r.ending (handled stream s (bodyLines r.pending))

lemma processLines_eq (s : σ) (r : Reader UInt8 ε) :
    processLines stream s r = outcome r.ending (handled stream s (r.lines newline)) := by
  induction hn : r.pending.length using Nat.strongRecOn generalizing r s with
  | ind n ih =>
    subst hn
    rw [processLines]
    rcases readBytes_cases newline r with ⟨hl, hr⟩ | ⟨l, r', hl, hr, he, hlt⟩
    · split
      · next heq => rw [hr] at heq; cases heq; rw [hl]; rfl
      · next heq => rw [hr] at heq; cases heq
    split
    · next heq => rw [hr] at heq; cases heq
    next heq =>
    rw [hr] at heq
    cases heq
    have ih' (s : σ) := ih _ hlt s r' rfl
    rw [he] at ih'
    rw [hl, handled]
    rcases stream.prepare l with _ | line
    · exact ih' s
    dsimp only
    split_ifs with hclosed
    · rfl
    · rw [ih']
      rfl

/-- What the lines after `ls` add. -/
lemma handled_append (tail : List (List UInt8)) : ∀ (ls : List (List UInt8)) (s : σ),
    ((handled stream s ls).2 = true ∧ handled stream s (ls ++ tail) = handled stream s ls) ∨
    ((handled stream s ls).2 = false ∧ ∃ s', handled stream s (ls ++ tail) =
      ((handled stream s ls).1 ++ (handled stream s' tail).1, (handled stream s' tail).2))
  | [], s => Or.inr ⟨rfl, s, rfl⟩
  | l :: ls, s => by
    rw [cons_append, handled, handled]
    rcases stream.prepare l with _ | line
    · exact handled_append tail ls s
    dsimp only
    split_ifs with hclosed
    · exact Or.inl ⟨rfl, rfl⟩
    rcases handled_append tail ls (stream.handlerPrefix s line).2 with
      ⟨hc, h⟩ | ⟨hc, s', h⟩
    · exact Or.inl ⟨hc, by rw [h]⟩
    · exact Or.inr ⟨hc, s', by rw [h]; rfl⟩

variable {stream} in
lemma handled_last {s : σ} {t line : List UInt8} (h : stream.prepare t = some line) :
    (handled stream s [t]).1 = [line] := by
  simp only [handled, h]
  split_ifs <;> rfl

/-- **When every line is handled**: the stream is closed before, or nothing that counts follows the
last newline. -/
theorem complete_iff (stream : Stream σ) (s : σ) (r : Reader UInt8 ε) :
    Complete stream s r ↔ (handled stream s (r.lines newline)).2 = true ∨
      (splitLines newline r.pending).2 = [] ∨
      stream.prepare (splitLines newline r.pending).2 = none := by
  rw [Complete, processLines_eq, bodyLines, Reader.lines]
  generalize (splitLines newline r.pending).1 = ls
  generalize (splitLines newline r.pending).2 = t
  by_cases ht : t = []
  · simp [ht]
  rw [filter_cons_of_pos (by simpa using ht), filter_nil]
  rcases handled_append stream [t] ls s with ⟨hc, h⟩ | ⟨hc, s', h⟩
  · simp [h, hc]
  · rcases hp : stream.prepare t with _ | line
    · simp [h, handled, hp, outcome, hc]
    · simp [h, outcome, handled_last hp, ht, hc]

/-- A last line without its newline is never handled. -/
theorem last_line_dropped :
    processLines ⟨false, fun _ line => (some line, ())⟩ ()
      (⟨[], [ascii "data"], "EOF"⟩ : Reader _ _) =
      ([], some "EOF") ∧
    handled ⟨false, fun _ line => (some line, ())⟩ () (bodyLines (ascii "data")) =
      ([ascii "data"], false) := by
  rw [processLines_eq]
  decide

end Tokilake.Relay.StreamReader
