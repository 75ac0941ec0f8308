import Tokilake.Relay.Retry

/-! # Midjourney actions

A custom id names its action between double colons, a simple change in its second word.  The result
is `none` where an index is out of range.

* `parsers_safe_iff`: when no index is. -/

namespace Tokilake.Relay.Midjourney

open Lib.Text
open Relay.Retry (contains)

structure MidjourneyRequest where
  customId : String := ""
  action : String := ""
  index : ℤ := 0
  taskId : String := ""
  deriving DecidableEq, Inhabited

structure MidjourneyResponse where
  code : ℕ
  description : String
  deriving DecidableEq

def mjRequestError : ℕ := 4

abbrev Reply := Option (Except MidjourneyResponse MidjourneyRequest)

def midjourneyError (desc : String) : Reply :=
  some (.error ⟨mjRequestError, desc⟩)

def atoi (s : String) : Option ℤ :=
  let signed := s.toList.head? = some '-' ∨ s.toList.head? = some '+'
  let digits := if signed then s.toList.tail else s.toList
  let n := digits.foldl (fun (n : ℤ) c => 10 * n + (c.toNat - 48)) 0
  let value := if s.toList.head? = some '-' then -n else n
  if digits = [] ∨ ¬ digits.all Char.isDigit ∨ value < -0x8000000000000000 ∨
    0x8000000000000000 ≤ value then none
  else some value

/-- The parts between double colons. -/
def splitColons : List Char → List (List Char)
  | [] => [[]]
  | [c] => [[c]]
  | a :: b :: cs =>
    if a = ':' ∧ b = ':' then [] :: splitColons cs
    else (splitColons (b :: cs)).modifyHead (a :: ·)

def parts (customId : String) : List String := (splitColons customId.toList).map String.ofList

def actionPart (splits : List String) : Option String := do
  let second ← splits[1]?
  if second = "JOB" then splits[2]? else some second

/-- An upscale or a variation, with the index of the fourth part. -/
def withIndex (splits : List String) (action : String)
    (midjRequest : MidjourneyRequest) : Reply := do
  match atoi (← splits[3]?) with
  | none => midjourneyError "index_parse_failed"
  | some index => some (.ok { midjRequest with index, action })

def withFirst (action : String) (midjRequest : MidjourneyRequest) : Reply :=
  some (.ok { midjRequest with index := 1, action })

def applyAction (splits : List String) (action : String)
    (midjRequest : MidjourneyRequest) : Reply :=
  if action = "" then midjourneyError "unknown_action"
  else if contains action "upsample" then withIndex splits "UPSCALE" midjRequest
  else if contains action "variation" then
    if action = "variation" then withIndex splits "VARIATION" midjRequest
    else if action = "low_variation" then withFirst "LOW_VARIATION" midjRequest
    else if action = "high_variation" then withFirst "HIGH_VARIATION" midjRequest
    else withFirst midjRequest.action midjRequest -- the action stays as it came
  else if contains action "pan" then withFirst "PAN" midjRequest
  else if contains action "reroll" then withFirst "REROLL" midjRequest
  else if action = "Outpaint" then withFirst "ZOOM" midjRequest
  else if action = "CustomZoom" then withFirst "CUSTOM_ZOOM" midjRequest
  else if action = "Inpaint" then withFirst "INPAINT" midjRequest
  else midjourneyError ("unknown_action:" ++ midjRequest.customId)

def coverPlusActionToNormalAction (midjRequest : MidjourneyRequest) : Reply :=
  if midjRequest.customId = "" then midjourneyError "custom_id_is_required"
  else do
    let action ← actionPart (parts midjRequest.customId)
    applyAction (parts midjRequest.customId) action midjRequest

/-- The index is the second character. -/
def changeIndex (action : String) : Option (Option ℤ) :=
  action.toList[1]?.map fun c => atoi (String.singleton c)

def changeParams (taskId action kind : String) : Option (Option MidjourneyRequest) := do
  match ← changeIndex action with
  | none => some none
  | some index =>
    if index < 1 ∨ 4 < index then some none
    else some (some { taskId, action := kind, index })

def change (taskId action : String) : Option (Option MidjourneyRequest) := do
  let first ← action.toList[0]?
  if first = 'u' then changeParams taskId action "UPSCALE"
  else if first = 'v' then changeParams taskId action "VARIATION"
  else if action = "r" then some (some { taskId, action := "REROLL" })
  else some none

def convertSimpleChangeParams (content : String) : Option (Option MidjourneyRequest) :=
  match split ' ' content with
  | [taskId, second] => change taskId (toLower second)
  | _ => some none

/-! ### When the parsers stay inside -/

/-- The action is set, and an upscale or a variation has the index that was sent. -/
def ActionSet (sent : Option ℤ) (midjRequest : MidjourneyRequest) : Prop :=
  midjRequest.action ≠ "" ∧ (midjRequest.action = "UPSCALE" ∨ midjRequest.action = "VARIATION" →
      sent = some midjRequest.index)

def Safe (sent : Option ℤ) (x : Option (Option MidjourneyRequest)) : Prop :=
  ∃ r, x = some r ∧ ∀ midjRequest ∈ r, ActionSet sent midjRequest

/-- Whatever the other fields of the request are. -/
def Covered (customId : String) : Prop :=
  ∀ midjRequest : MidjourneyRequest, Safe ((parts customId)[3]?.bind atoi)
    ((coverPlusActionToNormalAction { midjRequest with customId }).map Except.toOption)

def Converted (content : String) : Prop :=
  Safe ((split ' ' content)[1]?.bind fun second => (changeIndex (toLower second)).join)
    (convertSimpleChangeParams content)

/-- The parts an action needs are there, and a variation is one of the three. -/
def Known (splits : List String) (action : String) : Prop :=
  (contains action "upsample" ∨ action = "variation" → 3 < splits.length) ∧
  (contains action "variation" → contains action "upsample" ∨
    action ∈ ["variation", "low_variation", "high_variation"])

def Indexed (action : String) : Prop :=
  ∃ first, action.toList[0]? = some first ∧ (first = 'u' ∨ first = 'v' → 1 < action.toList.length)

section

variable {sent : Option ℤ} {action : String} {midjRequest : MidjourneyRequest}

@[simp] lemma safe_some {r : Option MidjourneyRequest} :
    Safe sent (some r) ↔ ∀ midjRequest ∈ r, ActionSet sent midjRequest := by
  simp [Safe]

@[simp] lemma not_safe_none : ¬ Safe sent none := by simp [Safe]

@[simp] lemma safe_error {desc : String} :
    Safe sent ((midjourneyError desc).map Except.toOption) := by
  simp [midjourneyError, Except.toOption]

@[simp] lemma safe_withFirst : Safe sent ((withFirst action midjRequest).map Except.toOption) ↔
    ActionSet sent { midjRequest with index := 1, action } := by
  simp [withFirst, Except.toOption]

lemma safe_withIndex {splits : List String} (ha : action ≠ "") : Safe (splits[3]?.bind atoi)
    ((withIndex splits action midjRequest).map Except.toOption) ↔ 3 < splits.length := by
  rw [withIndex]
  rcases h : splits[3]? with _ | part
  · simpa using h
  have hlt : 3 < splits.length := (List.getElem?_eq_some_iff.mp h).1
  rcases hn : atoi part with _ | index
  · simp [hlt, hn]
  · simp [ActionSet, Except.toOption, hlt, hn, ha]

lemma safe_changeParams {taskId kind : String} (hk : kind ≠ "") :
    Safe (changeIndex action).join (changeParams taskId action kind) ↔
      1 < action.toList.length := by
  rw [changeParams, changeIndex]
  rcases h : action.toList[1]? with _ | c
  · simpa using h
  have hlt : 1 < action.toList.length := (List.getElem?_eq_some_iff.mp h).1
  rcases hn : atoi (String.singleton c) with _ | index
  · simp [hlt, hn]
  · by_cases hi : index < 1 ∨ 4 < index
    · simp [hlt, hn, hi]
    · simp [ActionSet, hlt, hn, hi, hk]

end

lemma applyAction_safe (customId : String) (splits : List String) (action : String) :
    (∀ midjRequest : MidjourneyRequest, Safe (splits[3]?.bind atoi)
      ((applyAction splits action { midjRequest with customId }).map Except.toOption)) ↔
        Known splits action := by
  unfold applyAction Known
  split_ifs with h0 hup hvar h1 h2 h3
  · have hup : contains "" "upsample" = false := by decide
    have hvar : contains "" "variation" = false := by decide
    simp [h0, hup, hvar]
  · simp [safe_withIndex, hup]
  · simp [safe_withIndex, h1]
  · subst h2
    simp [ActionSet, hup]
  · subst h3
    simp [ActionSet, hup]
  · -- no action is set, and none may have been sent
    refine iff_of_false (fun h => ?_) (by simp [hup, hvar, h1, h2, h3])
    exact (safe_withFirst.mp (h {})).1 rfl
  all_goals
    have h1 : action ≠ "variation" := by rintro rfl; exact hvar (by decide)
    simp [ActionSet, hup, hvar, h1]

lemma covered_iff {customId : String} (h : customId ≠ "") : Covered customId ↔
    ∃ action, actionPart (parts customId) = some action ∧ Known (parts customId) action := by
  simp only [Covered, coverPlusActionToNormalAction, if_neg h]
  rcases actionPart (parts customId) with _ | action
  · simp
  · simp [applyAction_safe]

lemma change_safe (taskId action : String) :
    Safe (changeIndex action).join (change taskId action) ↔ Indexed action := by
  rw [change, Indexed]
  rcases action.toList[0]? with _ | first
  · simp
  simp only [Option.bind_eq_bind, Option.bind_some, Option.some.injEq, exists_eq_left']
  split_ifs with hu hv hr
  · simp [safe_changeParams, hu]
  · simp [safe_changeParams, hv]
  · simp [ActionSet, hu, hv]
  · simp [hu, hv]

lemma converted_iff (content : String) : Converted content ↔
    ∀ taskId second, split ' ' content = [taskId, second] → Indexed (toLower second) := by
  unfold Converted convertSimpleChangeParams
  split
  · next taskId second heq => simp [heq, change_safe]
  · next hne => exact iff_of_true (by simp) fun taskId second h => (hne _ _ h).elim

/-- **When both parsers stay inside their strings and set an action**: the custom id has the parts
its action needs and names no variation of its own, and the second word of a change has its index.
-/
theorem parsers_safe_iff (customId content : String) :
    (customId ≠ "" → Covered customId) ∧ Converted content ↔
      (customId ≠ "" → ∃ action, actionPart (parts customId) = some action ∧
        Known (parts customId) action) ∧
      ∀ taskId second, split ' ' content = [taskId, second] → Indexed (toLower second) := by
  rw [converted_iff]
  exact and_congr_left' (forall_congr' covered_iff)

/-- An id without a separator and a change without its index are out of range; a variation that is
not known sets no action. -/
theorem parsers_out_of_range : coverPlusActionToNormalAction { customId := "upsample" } = none ∧
    convertSimpleChangeParams "1 u" = none ∧
    coverPlusActionToNormalAction { customId := "MJ::variations" } =
      some (.ok { customId := "MJ::variations", index := 1 }) := by
  decide

end Tokilake.Relay.Midjourney
