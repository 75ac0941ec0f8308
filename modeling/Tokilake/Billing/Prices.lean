import Tokilake.Relay.Pricing
import Tokilake.Routing.Chooser
import Mathlib.Data.List.Dedup

/-! # The cached prices

`Pricing` keeps the rows of a table in a map, together with the models that end with a star.  The
order of the patterns, and whether a transaction is committed, are parts of a label.

* `coherent_iff`: when the cache stays what the table says. -/

namespace Tokilake.Billing.Prices

open Lib.Run List
open Routing (isPattern matchesPattern getModelsWithMatch)

/-! ### The table and the cache -/

structure Price extends Relay.Pricing.Price where
  model : String
  channelType : ℕ := 0
  locked : Bool := false

def defaultPrice : Price := { type := .tokens, input := 30, output := 30, model := "" }

structure Pricing where
  prices : String → Option Price := fun _ => none
  patterns : List String := []

def priceMap (rows : List Price) (model : String) : Option Price :=
  rows.reverse.find? fun price => price.model = model

def wildcards (rows : List Price) : List String := ((rows.map Price.model).filter isPattern).dedup

def Pricing.init (p : Pricing) (rows : List Price) (order : List String) : Pricing :=
  if rows.isEmpty then p else ⟨priceMap rows, order⟩

def Pricing.getPrice (p : Pricing) (modelName : String) : Price :=
  ((p.prices modelName).or (p.prices (getModelsWithMatch p.patterns modelName))).getD defaultPrice

def fresh (rows : List Price) (order : List String) : Pricing := Pricing.init {} rows order

def Pricing.forget (p : Pricing) (models : List String) : Pricing :=
  { p with prices := fun model => if model ∈ models then none else p.prices model }

/-! ### The operations -/

inductive Mode
  | system
  | add
  | overwrite
  | update
  | other
  deriving DecidableEq

inductive Op
  | addPrice (price : Price)
  | updatePrice (modelName : String) (price : Price)
  | deletePrice (modelName : String)
  | batchSetPrices (models : List String) (price : Price) (originalModels : List String)
  | batchDeletePrices (models : List String)
  | syncPricing (pricing : List Price) (mode : Mode)
  | updatePriceByPriceService (mode : Mode) (pricing : List Price)

structure State where
  rows : List Price := []
  cache : Pricing := {}

structure Event where
  op : Op
  order : List String := []
  commits : Bool := true

/-- Other rows, read back by `Init` or not, or a deletion in both places. -/
inductive Effect
  | nothing
  | reload (rows : List Price)
  | forget (models : List String)
  | behind (rows : List Price)

/-- The rows that `model IN (?)` does not find.  SQL compares names exactly here, as SQLite and
PostgreSQL do; a MySQL collation that ignores the case is outside of the model. -/
def without (models : List String) (rows : List Price) : List Price :=
  rows.filter fun price => price.model ∉ models

variable (known : String → Option Price)

variable (pricing rows : List Price)

def syncPriceWithoutOverwrite : Option (List Price) :=
  let newPrices := pricing.filter fun price => (known price.model).isNone
  if newPrices.isEmpty then none else some (rows ++ newPrices)

/-- With nothing to write, the transaction that has deleted the rows is left open. -/
def syncPriceWithOverwrite : Option (List Price) :=
  let newPrices := pricing.filter fun price => !(known price.model).any Price.locked
  if newPrices.isEmpty then none else some (rows.filter Price.locked ++ newPrices)

def syncPriceOnlyUpdate : Option (List Price) :=
  let newPrices := pricing.filter fun price => (known price.model).any fun old => !old.locked
  let names := newPrices.map Price.model
  if newPrices.isEmpty then none
  else some ((rows.filter fun price => price.locked || price.model ∉ names) ++ newPrices)

def sync (mode : Mode) : (String → Option Price) → List Price → List Price → Option (List Price) :=
  match mode with
  | .update => syncPriceOnlyUpdate
  | .overwrite => syncPriceWithOverwrite
  | .system | .add | .other => syncPriceWithoutOverwrite

def updatePrices (models : List String) (price : Price) (rows : List Price) : List Price :=
  rows.map fun row => if row.model ∈ models then { price with model := row.model } else row

def batchSet (models : List String) (price : Price) (originalModels : List String)
    (rows : List Price) : List Price :=
  let deletePrices := originalModels.filter fun model => model ∉ models
  let updated := originalModels.filter fun model => model ∈ models
  let addPrices := (models.filter fun model => model ∉ originalModels).map fun model =>
    { price with model }
  without deletePrices (updatePrices updated price (rows ++ addPrices))

def effect (s : State) (e : Event) : Except String Effect :=
  -- a transaction that is not committed leaves the rows as they were
  let written (rows : List Price) : List Price := if e.commits then rows else s.rows
  match e.op with
  | .addPrice price =>
    if (s.cache.prices price.model).isSome then .error "model already exists"
    else .ok (.reload (s.rows ++ [price]))
  | .updatePrice modelName price =>
    match s.cache.prices modelName with
    | none => .error "model not found"
    | some item =>
      if modelName ≠ price.model ∧ (s.cache.prices price.model).isSome then
        .error "model names cannot be duplicated"
      else .ok (.reload (without [item.model] s.rows ++ [price]))
  | .deletePrice modelName =>
    match s.cache.prices modelName with
    | none => .error "model not found"
    | some item => .ok (.reload (without [item.model] s.rows))
  | .batchSetPrices models price originalModels =>
    .ok (.reload (written (batchSet models price originalModels s.rows)))
  | .batchDeletePrices models => .ok (.forget models)
  | .syncPricing pricing mode =>
    match sync mode s.cache.prices pricing s.rows with
    | none => .ok .nothing
    | some rows => .ok (.reload (written rows))
  | .updatePriceByPriceService mode pricing =>
    -- the prices in the table are known to a `Pricing` of its own
    match mode with
    | .system => .ok .nothing
    | .other => .error "更新模式错误，更新模式仅能选择：add、overwrite、system，详见配置文件auto_price_updates_mode部分的说明"
    | mode =>
      match sync mode (fresh s.rows (wildcards s.rows)).prices pricing s.rows with
      | none => .ok .nothing
      | some rows => .ok (.behind (written rows))

def step (s : State) (e : Event) : Option State :=
  match effect s e with
  | .error _ => none
  | .ok .nothing => some s
  | .ok (.reload rows) =>
    if e.order.Perm (wildcards rows) then some ⟨rows, s.cache.init rows e.order⟩ else none
  | .ok (.forget models) =>
    some ⟨if e.commits then without models s.rows else s.rows, s.cache.forget models⟩
  | .ok (.behind rows) => some ⟨rows, s.cache⟩

/-! ### Lookups -/

section
variable {p : Pricing} {rows rows' : List Price} {order : List String} {name : String}

lemma priceMap_model {price : Price} (h : priceMap rows name = some price) :
    price.model = name := by
  simpa using find?_some h

lemma priceMap_isSome : (priceMap rows name).isSome ↔ name ∈ rows.map Price.model := by
  rw [priceMap, find?_isSome]
  simp

lemma mem_wildcards : name ∈ wildcards rows ↔ isPattern name = true ∧
    (priceMap rows name).isSome := by
  rw [wildcards, mem_dedup, mem_filter, priceMap_isSome, and_comm]

lemma priceMap_without (models : List String) (rows : List Price) (name : String) :
    priceMap (without models rows) name = if name ∈ models then none else priceMap rows name := by
  unfold priceMap without
  rw [← filter_reverse, find?_filter]
  split_ifs with h
  · refine find?_eq_none.mpr fun price _ => ?_
    by_cases hname : price.model = name
    · simp [hname, h]
    · simp [hname]
  · congr 1
    funext price
    by_cases hname : price.model = name
    · simp [hname, h]
    · simp [hname]

lemma nodup_wildcards (rows : List Price) : (wildcards rows).Nodup := nodup_dedup _

lemma wildcards_perm (h : ∀ model, priceMap rows' model = priceMap rows model) :
    (wildcards rows).Perm (wildcards rows') := by
  refine (perm_ext_iff_of_nodup (nodup_wildcards _) (nodup_wildcards _)).mpr fun w => ?_
  rw [mem_wildcards, mem_wildcards, h]

lemma getPrice_of_some {price : Price} (h : p.prices name = some price) :
    p.getPrice name = price := by
  rw [Pricing.getPrice, h]
  rfl

lemma getPrice_of_none (h : p.prices name = none) :
    p.getPrice name = (p.prices (getModelsWithMatch p.patterns name)).getD defaultPrice := by
  rw [Pricing.getPrice, h]
  rfl

lemma fresh_eq (h : order.Perm (wildcards rows)) : fresh rows order = ⟨priceMap rows, order⟩ := by
  cases rows with
  | nil =>
    obtain rfl : order = [] := List.Perm.eq_nil h
    rfl
  | cons row rows => rfl

lemma getModelsWithMatch_cases (order : List String) (name : String) :
    (getModelsWithMatch order name ∈ order ∧
        matchesPattern name (getModelsWithMatch order name) = true) ∨
      getModelsWithMatch order name = "" ∧ ∀ w ∈ order, matchesPattern name w = false := by
  unfold getModelsWithMatch
  cases h : order.find? (matchesPattern name) with
  | none => exact Or.inr ⟨rfl, fun w hw => by simpa using find?_eq_none.mp h w hw⟩
  | some w => exact Or.inl ⟨mem_of_find?_eq_some h, find?_some h⟩

/-! ### The cache and the table -/

/-- Each price stands under its model, and the patterns among the models are in the list. -/
structure Sane (p : Pricing) : Prop where
  model : ∀ name price, p.prices name = some price → price.model = name
  pattern : ∀ w ∈ p.patterns, isPattern w = true
  listed : ∀ w, isPattern w = true → (p.prices w).isSome → w ∈ p.patterns
  nodup : p.patterns.Nodup

/-- **The cache prices every name as a new one would**, and has the prices of the table. -/
def Coherent (s : State) : Prop :=
  (∀ model, s.cache.prices model = priceMap s.rows model) ∧ ∃ order, order.Perm (wildcards s.rows) ∧
      ∀ name, s.cache.getPrice name = (fresh s.rows order).getPrice name

lemma sane_fresh (h : order.Perm (wildcards rows)) : Sane ⟨priceMap rows, order⟩ := by
  refine ⟨fun name price hp => priceMap_model hp, fun w hw => ?_, fun w hw hs => ?_, ?_⟩
  · exact (mem_wildcards.mp (h.subset hw)).1
  · exact h.symm.subset (mem_wildcards.mpr ⟨hw, hs⟩)
  · exact h.nodup_iff.mpr (nodup_wildcards _)

lemma sane_init (hp : Sane p) (h : order.Perm (wildcards rows)) : Sane (p.init rows order) := by
  unfold Pricing.init
  split_ifs
  · exact hp
  · exact sane_fresh h

lemma sane_forget (hp : Sane p) (models : List String) : Sane (p.forget models) := by
  have hsub : ∀ {name price}, (p.forget models).prices name = some price →
      p.prices name = some price := by
    intro name price h
    dsimp only [Pricing.forget] at h
    split_ifs at h
    exact h
  refine ⟨fun name price h => hp.model name price (hsub h), hp.pattern, fun w hw hs => ?_, hp.nodup⟩
  obtain ⟨price, hprice⟩ := Option.isSome_iff_exists.mp hs
  exact hp.listed w hw (by rw [hsub hprice]; rfl)

lemma coherent_reload (h : order.Perm (wildcards rows)) :
    Coherent ⟨rows, p.init rows order⟩ ↔ rows ≠ [] ∨ ∀ model, p.prices model = none := by
  cases rows with
  | cons row rows =>
    refine iff_of_true ⟨fun model => rfl, order, h, fun name => rfl⟩ (Or.inl (cons_ne_nil _ _))
  | nil =>
    constructor
    · exact fun hc => Or.inr hc.1
    · rintro (hne | hnone)
      · exact absurd rfl hne
      · refine ⟨hnone, [], List.Perm.refl _, fun name => ?_⟩
        show p.getPrice name = _
        rw [getPrice_of_none (hnone _), hnone]
        rfl

lemma coherent_behind (hc : Coherent ⟨rows, p⟩) :
    Coherent ⟨rows', p⟩ ↔ ∀ model, priceMap rows' model = priceMap rows model := by
  obtain ⟨hsame, order, horder, hget⟩ := hc
  constructor
  · rintro ⟨hsame', -⟩ model
    exact (hsame' model).symm.trans (hsame model)
  · intro h
    have horder' := horder.trans (wildcards_perm h)
    refine ⟨fun model => (hsame model).trans (h model).symm, order, horder', fun name => ?_⟩
    rw [hget, fresh_eq horder, fresh_eq horder', funext h]

/-! ### Deleting from the cache -/

/-- Where the first pattern for a name has lost its price, nothing else prices the name. -/
def Unmasked (p : Pricing) : Prop :=
  ∀ name, p.prices name = none → p.prices (getModelsWithMatch p.patterns name) = none →
    (∀ w, isPattern w = true → (p.prices w).isSome → matchesPattern name w = false) ∧
      ∀ price, p.prices "" = some price → price = defaultPrice

lemma ne_empty_of_isPattern {w : String} (h : isPattern w = true) : w ≠ "" := by
  rintro rfl
  cases h

lemma price_ne_default (hp : Sane p) {w : String} {price : Price} (hw : isPattern w = true)
    (h : p.prices w = some price) : price ≠ defaultPrice := by
  rintro rfl
  exact ne_empty_of_isPattern hw (hp.model w _ h).symm

def Pricing.live (p : Pricing) : List String := p.patterns.filter fun w => (p.prices w).isSome

lemma mem_live (hp : Sane p) {w : String} :
    w ∈ p.live ↔ isPattern w = true ∧ (p.prices w).isSome := by
  rw [Pricing.live, mem_filter]
  constructor
  · rintro ⟨hmem, hs⟩
    exact ⟨hp.pattern w hmem, hs⟩
  · rintro ⟨hw, hs⟩
    exact ⟨hp.listed w hw hs, hs⟩

lemma live_perm (hp : Sane p) (hsame : ∀ model, p.prices model = priceMap rows model) :
    p.live.Perm (wildcards rows) := by
  have hnodup : p.live.Nodup := hp.nodup.filter _
  refine (perm_ext_iff_of_nodup hnodup (nodup_wildcards _)).mpr fun w => ?_
  rw [mem_live hp, mem_wildcards, hsame]

lemma getModelsWithMatch_filter (h : p.prices (getModelsWithMatch p.patterns name) ≠ none) :
    getModelsWithMatch p.live name = getModelsWithMatch p.patterns name := by
  obtain ⟨prices, patterns⟩ := p
  unfold getModelsWithMatch at h ⊢
  dsimp only [Pricing.live] at h ⊢
  induction patterns with
  | nil => rfl
  | cons w ws ih =>
    by_cases hmatch : matchesPattern name w = true
    · rw [find?_cons_of_pos hmatch] at h ⊢
      rw [filter_cons_of_pos (by simpa [Option.isSome_iff_ne_none] using h),
        find?_cons_of_pos hmatch]
    rw [find?_cons_of_neg hmatch] at h ⊢
    rw [filter_cons]
    split_ifs
    · rw [find?_cons_of_neg hmatch]
      exact ih h
    · exact ih h

lemma getModelsWithMatch_live (hp : Sane p) (hu : Unmasked p) (hname : p.prices name = none) :
    (p.prices (getModelsWithMatch p.patterns name)).getD defaultPrice =
      (p.prices (getModelsWithMatch p.live name)).getD defaultPrice := by
  by_cases hfirst : p.prices (getModelsWithMatch p.patterns name) = none
  · obtain ⟨hother, hempty⟩ := hu name hname hfirst
    have hnone : getModelsWithMatch p.live name = "" := by
      rcases getModelsWithMatch_cases p.live name with ⟨hmem, hmatch⟩ | ⟨hnone, -⟩
      · obtain ⟨hw, hs⟩ := (mem_live hp).mp hmem
        rw [hother _ hw hs] at hmatch
        cases hmatch
      · exact hnone
    rw [hfirst, hnone]
    cases hrow : p.prices "" with
    | none => rfl
    | some price => exact (hempty price hrow).symm
  · rw [getModelsWithMatch_filter hfirst]

lemma coherent_of_prices (hp : Sane p) (hsame : ∀ model, p.prices model = priceMap rows model) :
    Coherent ⟨rows, p⟩ ↔ Unmasked p := by
  have hfresh : ∀ {order}, order.Perm (wildcards rows) → fresh rows order = ⟨p.prices, order⟩ := by
    intro order horder
    rw [fresh_eq horder, funext hsame]
  constructor
  · rintro ⟨-, order, horder, hget⟩ name hname hfirst
    have hprice := hget name
    have hname' : (Pricing.mk p.prices order).prices name = none := hname
    rw [getPrice_of_none hname, hfirst, hfresh horder, getPrice_of_none hname', Option.getD_none]
      at hprice
    rcases getModelsWithMatch_cases order name with ⟨hmem, -⟩ | ⟨hnone, hall⟩
    · -- a pattern of the table prices the name
      obtain ⟨hw, hs⟩ := mem_wildcards.mp (horder.subset hmem)
      rw [← hsame] at hs
      obtain ⟨price, hw'⟩ := Option.isSome_iff_exists.mp hs
      rw [hw'] at hprice
      exact absurd hprice.symm (price_ne_default hp hw hw')
    · refine ⟨fun w hw hs => hall w (horder.symm.subset (mem_wildcards.mpr ⟨hw, ?_⟩)), ?_⟩
      · rw [← hsame]
        exact hs
      · intro price hrow
        rw [hnone, hrow] at hprice
        exact hprice.symm
  · intro hu
    have horder := live_perm hp hsame
    refine ⟨hsame, p.live, horder, fun name => ?_⟩
    rw [hfresh horder]
    cases hname : p.prices name with
    | some price =>
      have hname' : (Pricing.mk p.prices p.live).prices name = some price := hname
      rw [getPrice_of_some hname, getPrice_of_some hname']
    | none =>
      have hname' : (Pricing.mk p.prices p.live).prices name = none := hname
      rw [getPrice_of_none hname, getPrice_of_none hname']
      exact getModelsWithMatch_live hp hu hname

lemma coherent_forget {commits : Bool} {models : List String} (hp : Sane p)
    (hc : Coherent ⟨rows, p⟩) :
    Coherent ⟨if commits then without models rows else rows, p.forget models⟩ ↔
      if commits then Unmasked (p.forget models) else ∀ model ∈ models, p.prices model = none := by
  obtain ⟨hsame, horder⟩ := hc
  cases commits with
  | true =>
    refine coherent_of_prices (sane_forget hp models) fun model => ?_
    rw [if_pos rfl, priceMap_without, ← hsame]
    rfl
  | false =>
    rw [if_neg Bool.false_ne_true, if_neg Bool.false_ne_true]
    constructor
    · rintro ⟨hsame', -⟩ model hmem
      have hmodel := hsame' model
      rw [← hsame, Pricing.forget] at hmodel
      dsimp only at hmodel
      rw [if_pos hmem] at hmodel
      exact hmodel.symm
    · intro hnone
      have hforget : p.forget models = p := by
        obtain ⟨prices, patterns⟩ := p
        simp only [Pricing.forget, Pricing.mk.injEq, and_true]
        funext model
        split_ifs with hmem
        · exact (hnone model hmem).symm
        · rfl
      rw [hforget]
      exact ⟨hsame, horder⟩

end

/-! ### Runs -/

/-- `Init` finds a row or an empty cache, and no price gets masked or changed behind it. -/
def Kept (s : State) (e : Event) : Prop :=
  match effect s e with
  | .error _ | .ok .nothing => True
  | .ok (.reload rows) =>
    e.order.Perm (wildcards rows) → rows ≠ [] ∨ ∀ model, s.cache.prices model = none
  | .ok (.forget models) =>
    if e.commits then Unmasked (s.cache.forget models)
    else ∀ model ∈ models, s.cache.prices model = none
  | .ok (.behind rows) => ∀ model, priceMap rows model = priceMap s.rows model

lemma kept_of_none {s : State} {e : Event} (h : step s e = none) : Kept s e := by
  unfold step at h
  unfold Kept
  split at h
  · trivial
  · cases h
  · split_ifs at h with horder
    exact fun horder' => absurd horder' horder
  · cases h
  · cases h

lemma sane_step {s t : State} {e : Event} (hs : Sane s.cache) (h : step s e = some t) :
    Sane t.cache := by
  unfold step at h
  split at h
  · cases h
  · cases h; exact hs
  · split_ifs at h with horder
    cases h
    exact sane_init hs horder
  · cases h; exact sane_forget hs _
  · cases h; exact hs

lemma coherent_step {s t : State} {e : Event} (hs : Sane s.cache) (hc : Coherent s)
    (h : step s e = some t) : Coherent t ↔ Kept s e := by
  unfold step at h
  unfold Kept
  split at h
  · cases h
  · cases h; exact iff_of_true hc trivial
  · split_ifs at h with horder
    cases h
    rw [coherent_reload horder]
    exact ⟨fun hk _ => hk, fun hk => hk horder⟩
  · cases h; exact coherent_forget hs hc
  · cases h; exact coherent_behind hc

structure Setup where
  rows : List Price
  order : List String
  valid : order.Perm (wildcards rows)

def Setup.init (s : Setup) : State := ⟨s.rows, fresh s.rows s.order⟩

/-- **The cache stays coherent** in exactly the runs whose operations are all `Kept`. -/
theorem coherent_iff (s : Setup) (es : List Event) :
    Stays step Coherent s.init es ↔ Along step Kept s.init es := by
  have hfresh : s.init.cache = ⟨priceMap s.rows, s.order⟩ := fresh_eq s.valid
  refine stays_iff_along_of_invariant
    (J := fun s => Sane s.cache) kept_of_none sane_step coherent_step
    ?_ ⟨fun model => ?_, s.order, s.valid, fun name => rfl⟩
  · rw [hfresh]
    exact sane_fresh s.valid
  · rw [hfresh]
    rfl

/-- The last row is deleted; a pattern before another one is; the service adds a row. -/
theorem stale_prices :
    let price (model : String) (input : ℚ) : Price := { type := .tokens, input, output := 0, model }
    let seen (name : String) (s : State) : ℚ × ℚ :=
      ((s.cache.getPrice name).input, ((fresh s.rows (wildcards s.rows)).getPrice name).input)
    (run step {} [⟨.addPrice (price "gpt-4" 15), [], true⟩, ⟨.deletePrice "gpt-4", [], true⟩]).map
        (seen "gpt-4") = some (15, 30) ∧
    (run step {} [⟨.addPrice (price "gpt-*" 5), ["gpt-*"], true⟩,
        ⟨.addPrice (price "gpt-4*" 15), ["gpt-4*", "gpt-*"], true⟩,
        ⟨.batchDeletePrices ["gpt-4*"], [], true⟩]).map (seen "gpt-4") = some (30, 5) ∧
    (run step {} [⟨.updatePriceByPriceService .add [price "gpt-4" 15], [], true⟩]).map
        (seen "gpt-4") = some (30, 15) := by
  decide

end Tokilake.Billing.Prices
