import Tokilake.Lib.Rounding
import Tokilake.Lib.Text

/-! # What a request costs

Amounts are integers, and Go's `int(x)` and `math.Ceil` are `trunc` and `⌈x⌉`.  A rate is the
decimal that was entered; reading it, and each operation on float64, rounds by a `Precision`, which
is `float64` unless a `Config` has another (no fused multiply-add).  A map that is only summed up is
the list of its entries. `getTotalQuotaByUsage_pos_iff` and `getTotalQuotaByUsage_eq_zero_iff` say
when a request is charged and when it is free. -/

namespace Tokilake.Relay.Pricing

open Lib.Rounding

/-- The settings that prices depend on. -/
structure Config where
  preConsumedQuota : ℤ := 500
  quotaPerUnit : ℚ := 500 * 1000
  float : Precision := .float64

/-- The same settings with exact arithmetic. -/
def Config.exact (cfg : Config) : Config := { cfg with float := .exact }

/-! ### Prices -/

inductive PriceType
  | tokens
  | times
  deriving DecidableEq

structure Price where
  type : PriceType
  input : ℚ
  output : ℚ
  extraRatios : Option (List (String × ℚ)) := none

def Price.getInput (price : Price) : ℚ :=
  if price.input ≤ 0 then 0 else price.input

def Price.getOutput (price : Price) : ℚ :=
  if price.output ≤ 0 ∨ price.type = .times then 0 else price.output

def defaultExtraPrice : List (String × ℚ) :=
  [("cached_tokens", 1), ("cached_write_tokens", 5 / 4), ("cached_read_tokens", 1 / 10),
    ("input_audio_tokens", 1), ("output_audio_tokens", 1), ("reasoning_tokens", 1),
    ("input_text_tokens", 1), ("output_text_tokens", 1)]

def Price.getExtraRatio (price : Price) (key : String) : ℚ :=
  match price.extraRatios.bind (·.lookup key) with
  | some ratio => ratio
  | none => (defaultExtraPrice.lookup key).getD 1

def extraKeyIsPrompt : List (String × Bool) :=
  [("cached_tokens", true), ("cached_write_tokens", true), ("cached_read_tokens", true),
    ("input_audio_tokens", true), ("output_audio_tokens", false), ("reasoning_tokens", false),
    ("input_text_tokens", true), ("output_text_tokens", false), ("input_image_tokens", true),
    ("output_image_tokens", false)]

def getExtraPriceIsPrompt (key : String) : Bool := (extraKeyIsPrompt.lookup key).getD false

def getIncreaseTokens (fl : Precision) (tokens : ℤ) (ratio : ℚ) : ℤ :=
  trunc (fl (fl tokens * fl (fl ratio - 1)))

/-! ### Usage reports -/

structure PromptTokensDetails where
  audioTokens : ℤ := 0
  cachedTokens : ℤ := 0
  textTokens : ℤ := 0
  imageTokens : ℤ := 0
  cachedWriteTokens : ℤ := 0
  cachedReadTokens : ℤ := 0

structure CompletionTokensDetails where
  audioTokens : ℤ := 0
  textTokens : ℤ := 0
  reasoningTokens : ℤ := 0
  imageTokens : ℤ := 0

structure ExtraBilling where
  type : String
  callCount : ℤ

structure Usage where
  promptTokens : ℤ
  completionTokens : ℤ
  promptTokensDetails : PromptTokensDetails := {}
  completionTokensDetails : CompletionTokensDetails := {}
  extraTokens : List (String × ℤ) := []
  extraBilling : Option (List (String × ExtraBilling)) := none

def setEntry (m : List (String × ℤ)) (key : String) (value : ℤ) : List (String × ℤ) :=
  (m.filter fun entry => entry.1 ≠ key) ++ [(key, value)]

def fillEntry (m : List (String × ℤ)) (detail : String × ℤ) : List (String × ℤ) :=
  if 0 < detail.2 ∧ (m.lookup detail.1).getD 0 = 0 then setEntry m detail.1 detail.2 else m

def Usage.getExtraTokens (u : Usage) : List (String × ℤ) :=
  [("cached_tokens", u.promptTokensDetails.cachedTokens),
    ("input_audio_tokens", u.promptTokensDetails.audioTokens),
    ("input_text_tokens", u.promptTokensDetails.textTokens),
    ("cached_write_tokens", u.promptTokensDetails.cachedWriteTokens),
    ("cached_read_tokens", u.promptTokensDetails.cachedReadTokens),
    ("input_image_tokens", u.promptTokensDetails.imageTokens),
    ("output_image_tokens", u.completionTokensDetails.imageTokens),
    ("output_audio_tokens", u.completionTokensDetails.audioTokens),
    ("output_text_tokens", u.completionTokensDetails.textTokens),
    ("reasoning_tokens", u.completionTokensDetails.reasoningTokens)].foldl fillEntry u.extraTokens

/-! ### Services billed on their own -/

def getModelTier (modelName : String) : String :=
  if "gpt-4.1".toList.isPrefixOf modelName.toList ∨ "gpt-4o".toList.isPrefixOf modelName.toList then
    "high_tier"
  else "standard"

def imageGeneration : List (String × List (String × ℚ)) :=
  [("low", [("1024x1024", 11 / 1000), ("1024x1536", 16 / 1000), ("1536x1024", 16 / 1000)]),
    ("medium", [("1024x1024", 42 / 1000), ("1024x1536", 63 / 1000), ("1536x1024", 63 / 1000)]),
    ("high", [("1024x1024", 167 / 1000), ("1024x1536", 1 / 4), ("1536x1024", 1 / 4)])]

def getDefaultExtraServicePrice (serviceType modelName extraType : String) : ℚ :=
  match serviceType with
  | "web_search_preview" => if getModelTier modelName = "high_tier" then 25 / 1000 else 1 / 100
  | "file_search" => 25 / 10000
  | "code_interpreter" => 3 / 100
  | "image_generation" =>
    match Lib.Text.split '-' extraType with
    | [quality, size] =>
      match imageGeneration.lookup (Lib.Text.toLower quality) with
      | some prices => (prices.lookup (Lib.Text.toLower size)).getD 0
      | none => 0
    | _ => 0
  | _ => 0

structure ExtraBillingData where
  type : String
  callCount : ℤ
  price : ℚ

/-! ### The amount -/

/-- The account of one request; `inputRatio` and `outputRatio` are set once. -/
structure Quota where
  modelName : String
  promptTokens : ℤ
  price : Price
  groupRatio : ℚ
  preConsumedQuota : ℤ := 0
  unlimitedQuota : Bool
  handelStatus : Bool := false
  extraBillingData : Option (List (String × ExtraBillingData)) := none

variable (cfg : Config) (fl : Precision) (q : Quota)

def Quota.inputRatio : ℚ := fl (fl q.price.getInput * fl q.groupRatio)

def Quota.outputRatio : ℚ := fl (fl q.price.getOutput * fl q.groupRatio)

def Quota.getExtraBillingData (extraBilling : Option (List (String × ExtraBilling))) : Quota :=
  match extraBilling with
  | none | some [] => q
  | some entries => { q with
      extraBillingData := some (entries.map fun (serviceType, value) =>
        (serviceType, ⟨value.type, value.callCount,
          getDefaultExtraServicePrice serviceType q.modelName value.type⟩)) }

def Quota.extraBillingQuota : ℤ :=
  ((q.extraBillingData.getD []).map fun (_, value) =>
    ⌈cfg.float (cfg.float value.price * cfg.quotaPerUnit)⌉ * value.callCount).sum

def Quota.meteredQuota (promptTokens completionTokens : ℤ) : ℤ :=
  let fl := cfg.float
  let quota := match q.price.type with
    | .times => trunc (fl (1000 * q.inputRatio fl))
    | .tokens =>
      ⌈fl (fl (fl promptTokens * q.inputRatio fl) + fl (fl completionTokens * q.outputRatio fl))⌉
  if 0 < q.extraBillingQuota cfg then quota + ⌈fl (fl (q.extraBillingQuota cfg) * fl q.groupRatio)⌉
  else quota

def Quota.getTotalQuota (promptTokens completionTokens : ℤ)
    (extraBilling : Option (List (String × ExtraBilling))) : ℤ :=
  let quota := (q.getExtraBillingData extraBilling).meteredQuota cfg promptTokens completionTokens
  let quota := if q.inputRatio cfg.float ≠ 0 ∧ quota ≤ 0 then 1 else quota
  if promptTokens + completionTokens = 0 then 0 else quota

def Quota.getComputeTokensByUsage (usage : Usage) : ℤ × ℤ :=
  usage.getExtraTokens.foldl (fun (promptTokens, completionTokens) (key, value) =>
    let increase := getIncreaseTokens fl value (q.price.getExtraRatio key)
    if getExtraPriceIsPrompt key then (promptTokens + increase, completionTokens)
    else (promptTokens, completionTokens + increase)) (usage.promptTokens, usage.completionTokens)

def Quota.getTotalQuotaByUsage (usage : Usage) : ℤ :=
  let (promptTokens, completionTokens) := q.getComputeTokensByUsage cfg.float usage
  q.getTotalQuota cfg promptTokens completionTokens usage.extraBilling

/-! ### When a request is charged -/

/-- It counts a token, and there is an input rate or the meter shows an amount. -/
def Quota.IsCharged (usage : Usage) : Prop :=
  let (promptTokens, completionTokens) := q.getComputeTokensByUsage cfg.float usage
  promptTokens + completionTokens ≠ 0 ∧ (q.inputRatio cfg.float ≠ 0 ∨
    0 < (q.getExtraBillingData usage.extraBilling).meteredQuota cfg promptTokens completionTokens)

/-- It counts no token, or there is no input rate and the meter shows zero. -/
def Quota.IsFree (usage : Usage) : Prop :=
  let (promptTokens, completionTokens) := q.getComputeTokensByUsage cfg.float usage
  promptTokens + completionTokens = 0 ∨ (q.inputRatio cfg.float = 0 ∧
    (q.getExtraBillingData usage.extraBilling).meteredQuota cfg promptTokens completionTokens = 0)

variable {cfg : Config} {q : Quota} {usage : Usage}

lemma getTotalQuota_of_no_tokens {p c : ℤ} (h : p + c = 0)
    (e : Option (List (String × ExtraBilling))) :
    q.getTotalQuota cfg p c e = 0 := by
  simp [Quota.getTotalQuota, h]

lemma getTotalQuota_of_no_rate {p c : ℤ} (h : p + c ≠ 0) (hr : q.inputRatio cfg.float = 0)
    (e : Option (List (String × ExtraBilling))) :
    q.getTotalQuota cfg p c e = (q.getExtraBillingData e).meteredQuota cfg p c := by
  simp [Quota.getTotalQuota, h, hr]

lemma getTotalQuota_of_rate {p c : ℤ} (h : p + c ≠ 0) (hr : q.inputRatio cfg.float ≠ 0)
    (e : Option (List (String × ExtraBilling))) :
    q.getTotalQuota cfg p c e = max 1 ((q.getExtraBillingData e).meteredQuota cfg p c) := by
  simp only [Quota.getTotalQuota, h, hr, ne_eq, not_false_eq_true, true_and, if_false]
  split_ifs <;> omega

lemma getTotalQuotaByUsage_pos_iff : 0 < q.getTotalQuotaByUsage cfg usage ↔
    q.IsCharged cfg usage := by
  unfold Quota.getTotalQuotaByUsage Quota.IsCharged
  generalize q.getComputeTokensByUsage cfg.float usage = tokens
  obtain ⟨p, c⟩ := tokens
  by_cases h : p + c = 0
  · simp [getTotalQuota_of_no_tokens h, h]
  by_cases hr : q.inputRatio cfg.float = 0
  · simp [getTotalQuota_of_no_rate h hr, h, hr]
  · simp [getTotalQuota_of_rate h hr, h, hr]

lemma getTotalQuotaByUsage_eq_zero_iff : q.getTotalQuotaByUsage cfg usage = 0 ↔
    q.IsFree cfg usage := by
  unfold Quota.getTotalQuotaByUsage Quota.IsFree
  generalize q.getComputeTokensByUsage cfg.float usage = tokens
  obtain ⟨p, c⟩ := tokens
  by_cases h : p + c = 0
  · simp [getTotalQuota_of_no_tokens h, h]
  by_cases hr : q.inputRatio cfg.float = 0
  · simp [getTotalQuota_of_no_rate h hr, h, hr]
  · have hpos : max 1 ((q.getExtraBillingData usage.extraBilling).meteredQuota cfg p c) ≠ 0 := by
      omega
    simp [getTotalQuota_of_rate h hr, h, hr, hpos]

end Tokilake.Relay.Pricing
