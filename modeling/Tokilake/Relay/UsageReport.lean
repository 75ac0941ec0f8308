import Tokilake.Lib.Entries
import Tokilake.Relay.Pricing

/-! # Usage reports of a session

`Merge` adds three counts and five of the details of an event to a running one; `IncExtraBilling`
notes a type in its first call alone.

* `mergeAll_iff`, `extraBilling_iff`: when nothing of the events is lost. -/

namespace Tokilake.Relay.UsageReport

open Lib.Entries Lib.Rounding Relay.Pricing Option

/-! ### Events of a realtime session -/

structure PromptTokensDetails extends Pricing.PromptTokensDetails where
  cachedTokensInternal : ℤ := 0

structure CompletionTokensDetails extends Pricing.CompletionTokensDetails where
  acceptedPredictionTokens : ℤ := 0
  rejectedPredictionTokens : ℤ := 0

structure UsageEvent where
  inputTokens : ℤ := 0
  outputTokens : ℤ := 0
  totalTokens : ℤ := 0
  inputTokenDetails : PromptTokensDetails := {}
  outputTokenDetails : CompletionTokensDetails := {}
  extraTokens : List (String × ℤ) := []

def PromptTokensDetails.merge (i other : PromptTokensDetails) : PromptTokensDetails :=
  { i with
    audioTokens := i.audioTokens + other.audioTokens
    cachedTokens := i.cachedTokens + other.cachedTokens
    textTokens := i.textTokens + other.textTokens }

@[simp] def CompletionTokensDetails.merge (o other : CompletionTokensDetails) :
    CompletionTokensDetails :=
  { o with
    audioTokens := o.audioTokens + other.audioTokens
    textTokens := o.textTokens + other.textTokens }

def UsageEvent.merge (u other : UsageEvent) : UsageEvent :=
  { u with
    inputTokens := u.inputTokens + other.inputTokens
    outputTokens := u.outputTokens + other.outputTokens
    totalTokens := u.totalTokens + other.totalTokens
    inputTokenDetails := u.inputTokenDetails.merge other.inputTokenDetails
    outputTokenDetails := u.outputTokenDetails.merge other.outputTokenDetails }

def UsageEvent.toChatUsage (u : UsageEvent) : Usage :=
  { promptTokens := u.inputTokens
    completionTokens := u.outputTokens
    promptTokensDetails := u.inputTokenDetails.toPromptTokensDetails
    completionTokensDetails := u.outputTokenDetails.toCompletionTokensDetails }

/-- The writes of `Merge`, which no lock holds together. -/
def UsageEvent.writes (other : UsageEvent) : List (UsageEvent → UsageEvent) :=
  [fun u => { u with inputTokens := u.inputTokens + other.inputTokens },
    fun u => { u with outputTokens := u.outputTokens + other.outputTokens },
    fun u => { u with totalTokens := u.totalTokens + other.totalTokens },
    fun u => { u with inputTokenDetails.audioTokens :=
      u.inputTokenDetails.audioTokens + other.inputTokenDetails.audioTokens },
    fun u => { u with inputTokenDetails.cachedTokens :=
      u.inputTokenDetails.cachedTokens + other.inputTokenDetails.cachedTokens },
    fun u => { u with inputTokenDetails.textTokens :=
      u.inputTokenDetails.textTokens + other.inputTokenDetails.textTokens },
    fun u => { u with outputTokenDetails.audioTokens :=
      u.outputTokenDetails.audioTokens + other.outputTokenDetails.audioTokens },
    fun u => { u with outputTokenDetails.textTokens :=
      u.outputTokenDetails.textTokens + other.outputTokenDetails.textTokens }]

/-- The reads of `ToChatUsage`, field by field. -/
def UsageEvent.reads : List (UsageEvent → Usage → Usage) :=
  [fun u copy => { copy with promptTokens := u.inputTokens },
    fun u copy => { copy with completionTokens := u.outputTokens },
    fun u copy => { copy with promptTokensDetails.audioTokens := u.inputTokenDetails.audioTokens },
    fun u copy =>
      { copy with promptTokensDetails.cachedTokens := u.inputTokenDetails.cachedTokens },
    fun u copy => { copy with promptTokensDetails.textTokens := u.inputTokenDetails.textTokens },
    fun u copy => { copy with promptTokensDetails.imageTokens := u.inputTokenDetails.imageTokens },
    fun u copy => { copy with
      promptTokensDetails.cachedWriteTokens := u.inputTokenDetails.cachedWriteTokens },
    fun u copy => { copy with
      promptTokensDetails.cachedReadTokens := u.inputTokenDetails.cachedReadTokens },
    fun u copy => { copy with
      completionTokensDetails.audioTokens := u.outputTokenDetails.audioTokens },
    fun u copy => { copy with
      completionTokensDetails.textTokens := u.outputTokenDetails.textTokens },
    fun u copy => { copy with
      completionTokensDetails.reasoningTokens := u.outputTokenDetails.reasoningTokens },
    fun u copy => { copy with
      completionTokensDetails.imageTokens := u.outputTokenDetails.imageTokens }]

lemma foldl_writes (u other : UsageEvent) :
    other.writes.foldl (fun u write => write u) u = u.merge other := rfl

lemma foldl_reads (u : UsageEvent) : UsageEvent.reads.foldl (fun copy read => read u copy)
    { promptTokens := 0, completionTokens := 0 } = u.toChatUsage := rfl

variable (events : List UsageEvent)

def mergeAll : UsageEvent := events.foldl UsageEvent.merge {}

/-! ### The sum of the events -/

def sumOf (field : UsageEvent → ℤ) : ℤ := (events.map field).sum

def total : UsageEvent where
  inputTokens := sumOf events (·.inputTokens)
  outputTokens := sumOf events (·.outputTokens)
  totalTokens := sumOf events (·.totalTokens)
  inputTokenDetails := {
    audioTokens := sumOf events (·.inputTokenDetails.audioTokens)
    cachedTokens := sumOf events (·.inputTokenDetails.cachedTokens)
    textTokens := sumOf events (·.inputTokenDetails.textTokens)
    imageTokens := sumOf events (·.inputTokenDetails.imageTokens)
    cachedTokensInternal := sumOf events (·.inputTokenDetails.cachedTokensInternal)
    cachedWriteTokens := sumOf events (·.inputTokenDetails.cachedWriteTokens)
    cachedReadTokens := sumOf events (·.inputTokenDetails.cachedReadTokens) }
  outputTokenDetails := {
    audioTokens := sumOf events (·.outputTokenDetails.audioTokens)
    textTokens := sumOf events (·.outputTokenDetails.textTokens)
    reasoningTokens := sumOf events (·.outputTokenDetails.reasoningTokens)
    acceptedPredictionTokens := sumOf events (·.outputTokenDetails.acceptedPredictionTokens)
    rejectedPredictionTokens := sumOf events (·.outputTokenDetails.rejectedPredictionTokens)
    imageTokens := sumOf events (·.outputTokenDetails.imageTokens) }

structure NothingUnmerged (events : List UsageEvent) : Prop where
  inputImage : sumOf events (·.inputTokenDetails.imageTokens) = 0
  cachedInternal : sumOf events (·.inputTokenDetails.cachedTokensInternal) = 0
  cachedWrite : sumOf events (·.inputTokenDetails.cachedWriteTokens) = 0
  cachedRead : sumOf events (·.inputTokenDetails.cachedReadTokens) = 0
  reasoning : sumOf events (·.outputTokenDetails.reasoningTokens) = 0
  accepted : sumOf events (·.outputTokenDetails.acceptedPredictionTokens) = 0
  rejected : sumOf events (·.outputTokenDetails.rejectedPredictionTokens) = 0
  outputImage : sumOf events (·.outputTokenDetails.imageTokens) = 0

@[simp] lemma sumOf_nil (field : UsageEvent → ℤ) : sumOf [] field = 0 := rfl

@[simp] lemma sumOf_cons (e : UsageEvent) (events : List UsageEvent) (field : UsageEvent → ℤ) :
    sumOf (e :: events) field = field e + sumOf events field := by
  simp [sumOf]

lemma foldl_merge (u : UsageEvent) : events.foldl UsageEvent.merge u = u.merge (total events) := by
  induction events generalizing u with
  | nil => simp [UsageEvent.merge, PromptTokensDetails.merge, total]
  | cons e events ih =>
    rw [List.foldl_cons, ih]
    simp [UsageEvent.merge, PromptTokensDetails.merge, total, add_assoc]

lemma mergeAll_eq_total_iff : mergeAll events = total events ↔ NothingUnmerged events := by
  rw [mergeAll, foldl_merge]
  constructor
  · intro h
    have hin := congrArg UsageEvent.inputTokenDetails h
    have hout := congrArg UsageEvent.outputTokenDetails h
    simp only [UsageEvent.merge, PromptTokensDetails.merge, CompletionTokensDetails.merge, total,
      PromptTokensDetails.mk.injEq, Pricing.PromptTokensDetails.mk.injEq,
      CompletionTokensDetails.mk.injEq, Pricing.CompletionTokensDetails.mk.injEq] at hin hout
    obtain ⟨⟨-, -, -, himage, hwrite, hread⟩, hinternal⟩ := hin
    obtain ⟨⟨-, -, hreasoning, himage'⟩, haccepted, hrejected⟩ := hout
    exact ⟨himage.symm, hinternal.symm, hwrite.symm, hread.symm, hreasoning.symm, haccepted.symm,
      hrejected.symm, himage'.symm⟩
  · intro h
    simp [UsageEvent.merge, PromptTokensDetails.merge, total, h.inputImage, h.cachedInternal,
      h.cachedWrite, h.cachedRead, h.reasoning, h.accepted, h.rejected, h.outputImage]

/-! ### The tokens a price counts -/

def addExtraTokens (fl : Precision) (q : Quota) (extraTokens : List (String × ℤ)) (tokens : ℤ × ℤ) :
    ℤ × ℤ :=
  extraTokens.foldl (fun (promptTokens, completionTokens) (key, value) =>
    let increase := getIncreaseTokens fl value (q.price.getExtraRatio key)
    if getExtraPriceIsPrompt key then (promptTokens + increase, completionTokens)
    else (promptTokens, completionTokens + increase)) tokens

def doubling (key : String) : Price where
  type := .tokens
  input := 1
  output := 1
  extraRatios := some ((key, 2) :: mapValues (fun _ _ => 1) extraKeyIsPrompt)

/-- **The merged report** is the sum exactly when the details not merged come to nothing. -/
theorem mergeAll_iff (events : List UsageEvent) : (mergeAll events = total events ∧
      ∀ (fl : Precision) (q : Quota), q.getComputeTokensByUsage fl (mergeAll events).toChatUsage =
        q.getComputeTokensByUsage fl (total events).toChatUsage) ↔ NothingUnmerged events := by
  rw [← mergeAll_eq_total_iff]
  constructor
  · rintro ⟨h, -⟩
    exact h
  · intro h
    refine ⟨h, fun fl q => ?_⟩
    rw [h]

def reasoned : UsageEvent where
  outputTokens := 1000
  totalTokens := 1000
  outputTokenDetails := { textTokens := 400, reasoningTokens := 600 }

def reasoningQuota : Quota where
  modelName := "gpt-realtime"
  promptTokens := 0
  price := doubling "reasoning_tokens"
  groupRatio := 1
  unlimitedQuota := false

/-- The reasoning of a response is not merged, and is not counted in the end. -/
theorem reasoning_lost : (mergeAll [reasoned]).outputTokenDetails.reasoningTokens = 0 ∧
    (total [reasoned]).outputTokenDetails.reasoningTokens = 600 ∧
    reasoningQuota.getComputeTokensByUsage .float64 (mergeAll [reasoned]).toChatUsage = (0, 1000) ∧
    reasoningQuota.getComputeTokensByUsage .float64 (total [reasoned]).toChatUsage = (0, 1600) := by
  decide +kernel

/-! ### Services billed on their own -/

variable (u : Usage)

/-- The first call makes the map, and notes its own type unless tokens share the key. -/
def billings (key bType : String) : List (String × ExtraBilling) :=
  match u.extraBilling with
  | some extraBilling => extraBilling
  | none => if (u.extraTokens.lookup key).isNone then put [] key ⟨bType, 0⟩ else []

def incExtraBilling (key bType : String) : Usage :=
  let billing := ((billings u key bType).lookup key).getD ⟨"", 0⟩
  let billing := { billing with callCount := billing.callCount + 1 }
  { u with extraBilling := some (put (billings u key bType) key billing) }

variable (calls : List (String × String))

def incAll : Usage := calls.foldl (fun u call => incExtraBilling u call.1 call.2) u

def noted (key : String) : Option ExtraBilling := (u.extraBilling.getD []).lookup key

def callsOf (key : String) : ℕ := (calls.map Prod.fst).count key

lemma noted_incExtraBilling (k bType key : String) :
    noted (incExtraBilling u k bType) key = if key = k then
      some ⟨(((billings u k bType).lookup k).getD ⟨"", 0⟩).type,
        (((billings u k bType).lookup k).getD ⟨"", 0⟩).callCount + 1⟩
    else (billings u k bType).lookup key := by
  rw [noted, incExtraBilling, getD_some, lookup_put]

lemma callsOf_cons (call : String × String) (calls : List (String × String)) (key : String) :
    callsOf (call :: calls) key = callsOf calls key + if key = call.1 then 1 else 0 := by
  by_cases h : key = call.1
  · simp [callsOf, h]
  · simp [callsOf, h, List.count_cons_of_ne (Ne.symm h)]

lemma noted_incAll_of_made {u : Usage} (hmade : u.extraBilling.isSome)
    (calls : List (String × String)) (key : String) :
    noted (incAll u calls) key = if callsOf calls key = 0 then noted u key else
      some ⟨((noted u key).getD ⟨"", 0⟩).type,
        ((noted u key).getD ⟨"", 0⟩).callCount + callsOf calls key⟩ := by
  induction calls generalizing u with
  | nil => simp [incAll, callsOf]
  | cons call calls ih =>
    obtain ⟨k, bType⟩ := call
    have hbillings : ∀ k', (billings u k bType).lookup k' = noted u k' := by
      intro k'
      obtain ⟨m, hm⟩ := isSome_iff_exists.mp hmade
      rw [billings, noted, hm, getD_some]
    have hstep := noted_incExtraBilling u k bType key
    rw [hbillings, hbillings] at hstep
    have hrun : incAll u ((k, bType) :: calls) = incAll (incExtraBilling u k bType) calls := rfl
    rw [hrun, ih rfl, hstep, callsOf_cons]
    by_cases hkey : key = k
    · subst hkey
      by_cases hcount : callsOf calls key = 0
      · simp [hcount]
      · simp [hcount]
        ring
    · simp [hkey]

def typeNoted (key : String) : String :=
  match calls with
  | [] => ""
  | (k, bType) :: _ => if key = k ∧ u.extraTokens.lookup k = none then bType else ""

lemma noted_incAll {u : Usage} (hnone : u.extraBilling = none) (calls : List (String × String))
    (key : String) : noted (incAll u calls) key =
      if callsOf calls key = 0 then none else some ⟨typeNoted u calls key, callsOf calls key⟩ := by
  cases calls with
  | nil => simp [incAll, noted, hnone, callsOf]
  | cons call calls =>
    obtain ⟨k, bType⟩ := call
    have hmade : ∀ k', (billings u k bType).lookup k' =
        if k' = k ∧ u.extraTokens.lookup k = none then some ⟨bType, 0⟩ else none := by
      rw [billings, hnone]
      by_cases hfree : u.extraTokens.lookup k = none
      · simp [hfree, lookup_put]
      · simp [hfree, isNone_iff_eq_none]
    have hstep := noted_incExtraBilling u k bType key
    rw [hmade, hmade] at hstep
    have hrun : incAll u ((k, bType) :: calls) = incAll (incExtraBilling u k bType) calls := rfl
    rw [hrun, noted_incAll_of_made rfl, hstep, callsOf_cons]
    by_cases hkey : key = k
    · subst hkey
      by_cases hfree : u.extraTokens.lookup key = none <;>
        by_cases hcount : callsOf calls key = 0 <;> simp [hcount, hfree, typeNoted, add_comm]
    · simp [hkey, typeNoted]

lemma lookup_getExtraBillingData (q : Quota) (u : Usage) {key : String} {billing : ExtraBilling}
    (h : noted u key = some billing) :
    ((q.getExtraBillingData u.extraBilling).extraBillingData.getD []).lookup key =
      some ⟨billing.type, billing.callCount,
        getDefaultExtraServicePrice key q.modelName billing.type⟩ := by
  cases hm : u.extraBilling with
  | none => simp [noted, hm] at h
  | some m =>
    rw [noted, hm, getD_some] at h
    have hdata : (q.getExtraBillingData (some m)).extraBillingData = some (mapValues
        (fun serviceType value => (⟨value.type, value.callCount,
          getDefaultExtraServicePrice serviceType q.modelName value.type⟩ :
            ExtraBillingData)) m) := by
      cases m with
      | nil => simp at h
      | cons entry m => rfl
    rw [hdata, getD_some, lookup_mapValues, h, map_some]

lemma callsOf_ne_zero {calls : List (String × String)} {key : String} :
    callsOf calls key ≠ 0 ↔ ∃ call ∈ calls, call.1 = key := by
  rw [callsOf, ne_eq, List.count_eq_zero, not_not, List.mem_map]

lemma typeNoted_eq_iff {typeOf : String → String} {calls : List (String × String)}
    (htype : ∀ call ∈ calls, call.2 = typeOf call.1) {call : String × String}
    (hcall : call ∈ calls) :
    typeNoted u calls call.1 = call.2 ↔
      call.2 = "" ∨ (calls.head? = some call ∧ u.extraTokens.lookup call.1 = none) := by
  cases calls with
  | nil => simp at hcall
  | cons first calls =>
    have hnoted : typeNoted u (first :: calls) call.1 =
        if call.1 = first.1 ∧ u.extraTokens.lookup first.1 = none then first.2 else "" := rfl
    rw [hnoted, List.head?_cons, some_inj, eq_comm]
    by_cases hkey : call.1 = first.1
    · have hfirst : first = call := by
        have h := (htype first (by simp)).trans (hkey ▸ (htype call hcall).symm)
        exact Prod.ext hkey.symm h
      subst hfirst
      by_cases hfree : u.extraTokens.lookup first.1 = none
      · rw [if_pos ⟨rfl, hfree⟩]
        exact iff_of_true rfl (Or.inr ⟨rfl, hfree⟩)
      · rw [if_neg fun h => hfree h.2]
        exact ⟨Or.inl, fun h => h.resolve_right fun h => hfree h.2⟩
    · have hne : first ≠ call := fun h => hkey (congrArg Prod.fst h).symm
      rw [if_neg fun h => hkey h.1]
      exact ⟨Or.inl, fun h => h.resolve_right fun h => hne h.1⟩

/-- **Services by their type**: no key but the first needs a type, and it is not shared. -/
theorem extraBilling_iff {u : Usage} (hnone : u.extraBilling = none) (typeOf : String → String)
    {calls : List (String × String)} (htype : ∀ call ∈ calls, call.2 = typeOf call.1) :
    ((∀ key, noted (incAll u calls) key =
        if callsOf calls key = 0 then none else some ⟨typeOf key, callsOf calls key⟩) ∧
      ∀ (q : Quota) (key : String), callsOf calls key ≠ 0 →
        ((q.getExtraBillingData
          (incAll u calls).extraBilling).extraBillingData.getD []).lookup key =
          some ⟨typeOf key, callsOf calls key,
            getDefaultExtraServicePrice key q.modelName (typeOf key)⟩) ↔
    ∀ call ∈ calls, call.2 = "" ∨
      (calls.head? = some call ∧ u.extraTokens.lookup call.1 = none) := by
  constructor
  · rintro ⟨hnoted, -⟩ call hcall
    have hcalled := callsOf_ne_zero.mpr ⟨call, hcall, rfl⟩
    have h := hnoted call.1
    rw [noted_incAll hnone, if_neg hcalled, if_neg hcalled, ← htype call hcall] at h
    rw [← typeNoted_eq_iff u htype hcall]
    exact congrArg ExtraBilling.type (some.inj h)
  · intro h
    have hnoted : ∀ key, noted (incAll u calls) key =
        if callsOf calls key = 0 then none else some ⟨typeOf key, callsOf calls key⟩ := by
      intro key
      rw [noted_incAll hnone]
      by_cases hcalled : callsOf calls key = 0
      · rw [if_pos hcalled, if_pos hcalled]
      · obtain ⟨call, hcall, rfl⟩ := callsOf_ne_zero.mp hcalled
        have htyped := (typeNoted_eq_iff u htype hcall).mpr (h call hcall)
        rw [if_neg hcalled, if_neg hcalled, htyped, htype call hcall]
    refine ⟨hnoted, fun q key hcalled => ?_⟩
    have hkey := hnoted key
    rw [if_neg hcalled] at hkey
    exact lookup_getExtraBillingData q (incAll u calls) hkey

def report : Usage := { promptTokens := 20, completionTokens := 50 }

/-- Two images and a search: the images come first, and the search needs no type. -/
theorem extraBilling_image_first :
    noted (incAll report [("image_generation", "high-1024x1024"), ("file_search", ""),
      ("image_generation", "high-1024x1024")]) "image_generation" = some ⟨"high-1024x1024", 2⟩ :=
  ((extraBilling_iff rfl
    (fun key => if key = "image_generation" then "high-1024x1024" else "") (by decide)).mpr
      (by decide)).1 "image_generation"

def drawing : Quota where
  modelName := "gpt-4.1"
  promptTokens := 20
  price := ⟨.tokens, 1, 1, none⟩
  groupRatio := 1
  unlimitedQuota := false

/-- An image drawn after a search is noted without its type, and costs nothing. -/
theorem image_for_nothing :
    let u := incAll report [("web_search_preview", ""), ("image_generation", "high-1024x1024")]
    (noted u "image_generation").map ExtraBilling.type = some "" ∧
    (((drawing.getExtraBillingData u.extraBilling).extraBillingData.getD []).lookup
      "image_generation").map ExtraBillingData.price = some 0 ∧
    getDefaultExtraServicePrice "image_generation" "gpt-4.1" "high-1024x1024" = 167 / 1000 := by
  decide +kernel

end Tokilake.Relay.UsageReport
