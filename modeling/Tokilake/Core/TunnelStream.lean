import Tokilake.Lib.Bytes
import Tokilake.Lib.Lines
import Mathlib.Tactic.Linarith

/-! # Reading frames off a tunnel stream

`TunnelStreamCodec` sends one JSON document a line.  `encoding/json` is the parameter `unmarshal`.

* `readMessage_cases`: what one call takes off the stream and returns. -/

namespace Tokilake.Core.TunnelStream

open Lib.Lines Lib.Bytes

structure ErrorMessage where
  code : String
  message : String
  deriving DecidableEq

structure TunnelResponse where
  requestId : String
  statusCode : ℤ
  headers : List (String × String)
  bodyChunk : List UInt8
  eof : Bool
  error : Option ErrorMessage
  deriving DecidableEq

structure TunnelStreamError where
  statusCode : ℤ
  code : String
  message : String
  type : String
  deriving DecidableEq

inductive IOErr
  | eof
  | closedPipe
  | transport (text : String)
  | decode (text : String)
  | stream (err : TunnelStreamError)
  deriving DecidableEq

def newline : UInt8 := 0x0a

variable {τ : Type}

def readMessage (unmarshal : List UInt8 → Except String τ) (r : Reader UInt8 IOErr) :
    Except IOErr τ × Reader UInt8 IOErr :=
  match _ : readBytes newline r with
  | (.error (_, err), r') => (.error err, r')
  | (.ok line, r') =>
    if trimSpace line = [] then readMessage unmarshal r'
    else match unmarshal (trimSpace line) with
      | .error err => (.error (.decode ("decode tunnel message: " ++ err)), r')
      | .ok target => (.ok target, r')
termination_by r.pending.length
decreasing_by exact readBytes_lt ‹_›

def messages (unmarshal : List UInt8 → Except String τ) (r : Reader UInt8 IOErr) :
    List (Except String τ) :=
  (((r.lines newline).map trimSpace).filter (· ≠ [])).map unmarshal

lemma readMessage_cases (unmarshal : List UInt8 → Except String τ) (r : Reader UInt8 IOErr) :
    (messages unmarshal r = [] ∧ (readMessage unmarshal r).1 = .error r.ending) ∨
    (∃ err ms, messages unmarshal r = .error err :: ms ∧
      (readMessage unmarshal r).1 = .error (.decode ("decode tunnel message: " ++ err))) ∨
    (∃ m r', messages unmarshal r = .ok m :: messages unmarshal r' ∧
      readMessage unmarshal r = (.ok m, r') ∧ r'.ending = r.ending ∧
      r'.pending.length < r.pending.length) := by
  induction hn : r.pending.length using Nat.strong_induction_on generalizing r with
  | _ n ih =>
    subst hn
    rw [readMessage]
    rcases readBytes_cases newline r with ⟨hl, hr⟩ | ⟨l, r', hl, hr, he, hlt⟩
    · left
      refine ⟨by simp [messages, hl], ?_⟩
      split
      · next heq => rw [hr] at heq; cases heq; rfl
      · next heq => rw [hr] at heq; cases heq
    · split
      · next heq => rw [hr] at heq; cases heq
      next heq =>
      rw [hr] at heq
      cases heq
      by_cases hb : trimSpace l = []
      · -- a blank line contributes no message
        have hm : messages unmarshal r = messages unmarshal r' := by simp [messages, hl, hb]
        rw [if_pos hb, hm]
        rcases ih _ hlt r' rfl with h | h | ⟨m, r'', h1, h2, h3, h4⟩
        · exact Or.inl (by rw [← he]; exact h)
        · exact Or.inr (Or.inl h)
        · exact Or.inr (Or.inr ⟨m, r'', h1, h2, h3.trans he, h4.trans hlt⟩)
      · have hm : messages unmarshal r = unmarshal (trimSpace l) :: messages unmarshal r' := by
          simp [messages, hl, hb]
        rw [if_neg hb, hm]
        rcases hu : unmarshal (trimSpace l) with err | m
        · exact Or.inr (Or.inl ⟨err, _, rfl, rfl⟩)
        · exact Or.inr (Or.inr ⟨m, r', rfl, rfl, he, hlt⟩)

end Tokilake.Core.TunnelStream
