import Tokilake.Billing.Prices

/-! # The table of prices

What `Prices` models step by step is looked at here from the table's side.

* `getPrice_iff`, `unique_iff`, `syncPricing_correct_iff`: when the order of the patterns does
  not matter, when a model keeps one row, and when a sync is correct. -/

namespace Tokilake.Billing.PriceTable

open Lib.Run Billing.Prices List
open Routing (matchesPattern getModelsWithMatch)

/-! ### The order of the patterns -/

section
variable {rows : List Price} {name w : String} {β : Type*} {f : Price → β}

def OrderFree (rows : List Price) (name : String) (f : Price → β) : Prop :=
  ∀ order order', order.Perm (wildcards rows) → order'.Perm (wildcards rows) →
    f ((fresh rows order).getPrice name) = f ((fresh rows order').getPrice name)

lemma getPrice_first (hname : priceMap rows name = none) (hw : w ∈ wildcards rows)
    (hmatch : matchesPattern name w = true) : ∃ order, order.Perm (wildcards rows) ∧
      (fresh rows order).getPrice name = (priceMap rows w).getD defaultPrice := by
  have horder := (perm_cons_erase hw).symm
  refine ⟨_, horder, ?_⟩
  rw [fresh_eq horder, getPrice_of_none hname, getModelsWithMatch, find?_cons_of_pos hmatch]
  rfl

/-- **The order does not matter** exactly if the name has a price, or all its patterns agree. -/
theorem getPrice_iff (rows : List Price) (name : String) (f : Price → β) :
    OrderFree rows name f ↔ (priceMap rows name).isSome ∨
      ∀ w ∈ wildcards rows, ∀ w' ∈ wildcards rows, matchesPattern name w = true →
        matchesPattern name w' = true →
        f ((priceMap rows w).getD defaultPrice) = f ((priceMap rows w').getD defaultPrice) := by
  cases hname : priceMap rows name with
  | some price =>
    refine iff_of_true (fun order order' h h' => ?_) (Or.inl rfl)
    rw [fresh_eq h, fresh_eq h', getPrice_of_some hname, getPrice_of_some hname]
  | none =>
    simp only [Option.isSome_none, Bool.false_eq_true, false_or]
    constructor
    · intro h w hw w' hw' hmatch hmatch'
      obtain ⟨order, horder, hprice⟩ := getPrice_first hname hw hmatch
      obtain ⟨order', horder', hprice'⟩ := getPrice_first hname hw' hmatch'
      rw [← hprice, ← hprice']
      exact h order order' horder horder'
    · intro h order order' horder horder'
      rw [fresh_eq horder, fresh_eq horder', getPrice_of_none hname, getPrice_of_none hname]
      rcases getModelsWithMatch_cases order name with ⟨hw, hmatch⟩ | ⟨hnone, hall⟩ <;>
        rcases getModelsWithMatch_cases order' name with ⟨hw', hmatch'⟩ | ⟨hnone', hall'⟩
      · exact h _ (horder.subset hw) _ (horder'.subset hw') hmatch hmatch'
      · rw [hall' _ (horder'.symm.subset (horder.subset hw))] at hmatch
        cases hmatch
      · rw [hall _ (horder.symm.subset (horder'.subset hw'))] at hmatch'
        cases hmatch'
      · rw [hnone, hnone']

end

/-- Two patterns for one name: the first one found sets the price. -/
theorem patterns_overlap :
    let price (model : String) (input : ℚ) : Price := { type := .tokens, input, output := 0, model }
    let rows := [price "gpt-*" 5, price "gpt-4*" 15]
    let input (order : List String) : ℚ := ((fresh rows order).getPrice "gpt-4o").input
    wildcards rows = ["gpt-*", "gpt-4*"] ∧ input ["gpt-*", "gpt-4*"] = 5 ∧
      input ["gpt-4*", "gpt-*"] = 15 := by
  decide +kernel

/-! ### What a synchronisation writes -/

section
variable {mode : Mode} {known : String → Option Price} {pricing rows kept new : List Price}

def newPrices (mode : Mode) (known : String → Option Price) (pricing : List Price) : List Price :=
  match mode with
  | .update => pricing.filter fun price => (known price.model).any fun old => !old.locked
  | .overwrite => pricing.filter fun price => !(known price.model).any Price.locked
  | .system | .add | .other => pricing.filter fun price => (known price.model).isNone

def oldPrices (mode : Mode) (known : String → Option Price)
    (pricing rows : List Price) : List Price :=
  match mode with
  | .update => rows.filter fun price =>
      price.locked || price.model ∉ (newPrices .update known pricing).map Price.model
  | .overwrite => rows.filter Price.locked
  | .system | .add | .other => rows

lemma sync_eq (mode : Mode) (known : String → Option Price) (pricing rows : List Price) :
    sync mode known pricing rows = if (newPrices mode known pricing).isEmpty then none
      else some (oldPrices mode known pricing rows ++ newPrices mode known pricing) := by
  cases mode <;> rfl

/-! ### One row for each model -/

def Unique (rows : List Price) : Prop := (rows.map Price.model).Nodup

structure Table where
  rows : List Price
  unique : Unique rows

def Adds (kept new : List Price) : Prop :=
  Unique new ∧ ∀ price ∈ new, price.model ∉ kept.map Price.model

lemma unique_append (hkept : Unique kept) : Unique (kept ++ new) ↔ Adds kept new := by
  rw [Unique, map_append, nodup_append]
  constructor
  · rintro ⟨-, hnew, hne⟩
    exact ⟨hnew, fun price hprice hmem => hne _ hmem _ (mem_map_of_mem hprice) rfl⟩
  · rintro ⟨hnew, hne⟩
    refine ⟨hkept, hnew, fun m hm m' hm' heq => ?_⟩
    obtain ⟨price, hprice, rfl⟩ := mem_map.mp hm'
    exact hne price hprice (heq ▸ hm)

lemma Unique.sublist (h : Unique rows) (hsub : kept.Sublist rows) : Unique kept :=
  List.Nodup.sublist (hsub.map _) h

lemma oldPrices_sublist : (oldPrices mode known pricing rows).Sublist rows := by
  cases mode with
  | update | overwrite => exact filter_sublist
  | system | add | other => exact List.Sublist.refl _

lemma map_updatePrices (models : List String) (price : Price) (rows : List Price) :
    (updatePrices models price rows).map Price.model = rows.map Price.model := by
  rw [updatePrices, map_map]
  refine map_congr_left fun row _ => ?_
  dsimp only [Function.comp]
  split_ifs <;> rfl

lemma map_without (models : List String) (rows : List Price) :
    (without models rows).map Price.model = (rows.map Price.model).filter (· ∉ models) := by
  rw [without, filter_map]
  rfl

lemma unique_batchSet {models originals : List String} {price : Price} (h : Unique rows) :
    Unique (batchSet models price originals rows) ↔
      Adds rows ((models.filter fun model => model ∉ originals).map fun model =>
        { price with model }) := by
  set added := (models.filter fun model => model ∉ originals).map fun model => { price with model }
  set deleted := originals.filter fun model => model ∉ models
  -- the models of the rows: some are deleted, and some are added, none of which is deleted
  have hkept : ∀ a ∈ added, a.model ∉ deleted := by
    intro a ha hdel
    obtain ⟨m, hm, rfl⟩ := mem_map.mp ha
    have h1 := (mem_filter.mp hm).1
    have h2 := (mem_filter.mp hdel).2
    simp [h1] at h2
  have hmap : (batchSet models price originals rows).map Price.model =
      (without deleted rows ++ added).map Price.model := by
    show (without deleted (updatePrices _ price (rows ++ added))).map Price.model = _
    rw [map_without, map_updatePrices, map_append, map_append, filter_append, map_without]
    congr 1
    rw [filter_eq_self]
    intro m hm
    obtain ⟨a, ha, rfl⟩ := mem_map.mp hm
    simpa using hkept a ha
  rw [Unique, hmap]
  refine (unique_append (h.sublist filter_sublist)).trans (and_congr_right fun _ => ?_)
  refine forall₂_congr fun a ha => not_congr ?_
  change a.model ∈ (without deleted rows).map Price.model ↔ _
  rw [map_without, mem_filter]
  exact and_iff_left (by simpa using hkept a ha)

def Careful (s : State) (e : Event) : Prop :=
  (step s e).isSome → match e.op with
  | .addPrice price => Adds s.rows [price]
  | .updatePrice modelName price =>
    ∀ item ∈ s.cache.prices modelName, Adds (without [item.model] s.rows) [price]
  | .deletePrice _ | .batchDeletePrices _ => True
  | .batchSetPrices models price originalModels => e.commits → Adds s.rows
      ((models.filter fun model => model ∉ originalModels).map fun model => { price with model })
  | .syncPricing pricing mode => e.commits →
      Adds (oldPrices mode s.cache.prices pricing s.rows) (newPrices mode s.cache.prices pricing)
  | .updatePriceByPriceService mode pricing => mode ≠ .system → e.commits →
      Adds (oldPrices mode (priceMap s.rows) pricing s.rows)
        (newPrices mode (priceMap s.rows) pricing)

lemma unique_sync {commits : Bool} {rows' : List Price} (h : Unique rows)
    (hsync : sync mode known pricing rows = some rows') : Unique (if commits then rows' else rows) ↔
      (commits → Adds (oldPrices mode known pricing rows) (newPrices mode known pricing)) := by
  rw [sync_eq] at hsync
  split_ifs at hsync
  cases hsync
  cases commits with
  | false => exact iff_of_true h fun hc => absurd hc Bool.false_ne_true
  | true =>
    exact (unique_append (h.sublist oldPrices_sublist)).trans ⟨fun ha _ => ha, fun ha => ha rfl⟩

lemma adds_of_none (hsync : sync mode known pricing rows = none) :
    Adds (oldPrices mode known pricing rows) (newPrices mode known pricing) := by
  rw [sync_eq] at hsync
  split_ifs at hsync with hempty
  rw [isEmpty_iff.mp hempty]
  exact ⟨nodup_nil, fun price hprice => by cases hprice⟩

def rowsAfter (commits : Bool) (rows : List Price) : Effect → List Price
  | .nothing => rows
  | .reload rows' | .behind rows' => rows'
  | .forget models => if commits then without models rows else rows

lemma effect_of_step {s t : State} {e : Event} (h : step s e = some t) :
    ∃ eff, effect s e = .ok eff ∧ t.rows = rowsAfter e.commits s.rows eff := by
  unfold step at h
  split at h
  case h_1 => cases h
  case h_3 =>
    split_ifs at h
    cases h; exact ⟨_, by assumption, rfl⟩
  all_goals cases h; exact ⟨_, by assumption, rfl⟩

lemma unique_step {s t : State} {e : Event} (hs : Unique s.rows) (h : step s e = some t) :
    Unique t.rows ↔ Careful s e := by
  obtain ⟨eff, heff, hrows⟩ := effect_of_step h
  have hsome : (step s e).isSome := by rw [h]; rfl
  obtain ⟨op, order, commits⟩ := e
  rw [Careful, forall_prop_of_true hsome, hrows]
  unfold effect at heff
  cases op with
  | addPrice price =>
    dsimp only at heff ⊢
    split_ifs at heff
    cases heff
    exact unique_append hs
  | updatePrice modelName price =>
    dsimp only at heff ⊢
    split at heff
    · cases heff
    rename_i item hitem
    split_ifs at heff
    cases heff
    rw [hitem]
    refine (unique_append (hs.sublist filter_sublist)).trans ⟨fun ha i hi => ?_,
      fun ha => ha item rfl⟩
    cases hi
    exact ha
  | deletePrice modelName =>
    dsimp only at heff ⊢
    split at heff
    · cases heff
    · cases heff
      exact iff_of_true (hs.sublist filter_sublist) trivial
  | batchSetPrices models price originalModels =>
    cases heff
    split_ifs with hc
    · exact (unique_batchSet hs).trans ⟨fun ha _ => ha, fun ha => ha hc⟩
    · exact iff_of_true hs fun hc' => absurd hc' hc
  | batchDeletePrices models =>
    cases heff
    refine iff_of_true ?_ trivial
    dsimp only [rowsAfter]
    split_ifs
    · exact hs.sublist filter_sublist
    · exact hs
  | syncPricing pricing mode =>
    dsimp only at heff ⊢
    split at heff
    · cases heff
      exact iff_of_true hs fun _ => adds_of_none (by assumption)
    · cases heff
      exact unique_sync hs (by assumption)
  | updatePriceByPriceService mode pricing =>
    have hknown : (fresh s.rows (wildcards s.rows)).prices = priceMap s.rows := by
      rw [fresh_eq (List.Perm.refl _)]
    rw [hknown] at heff
    dsimp only at heff ⊢
    split at heff
    · cases heff
      exact iff_of_true hs fun hne => absurd rfl hne
    · cases heff
    · rename_i hsystem _
      rw [forall_prop_of_true hsystem]
      split at heff
      · cases heff
        exact iff_of_true hs fun _ => adds_of_none (by assumption)
      · cases heff
        exact unique_sync hs (by assumption)

/-- **The table has one row for each model** exactly if rows are added for new models only. -/
theorem unique_iff (table : Table) (cache : Pricing) (es : List Event) :
    Stays step (fun s => Unique s.rows) ⟨table.rows, cache⟩ es ↔
      Along step Careful ⟨table.rows, cache⟩ es := by
  refine stays_iff_along_of_invariant (J := fun _ => True) (fun h hsome => ?_) (fun _ _ => trivial)
    (fun _ hs h => unique_step hs h) trivial table.unique
  rw [h] at hsome
  cases hsome

/-- Three ways to two prices for a model. -/
theorem duplicate_rows :
    let price (input : ℚ) : Price := { type := .tokens, input, output := 0, model := "gpt-4" }
    let inputs (es : List Event) : Option (List (String × ℚ)) :=
      (run step {} es).map fun s => s.rows.map fun row => (row.model, row.input)
    inputs [⟨.syncPricing [price 5, price 15] .add, [], true⟩] =
      some [("gpt-4", 5), ("gpt-4", 15)] ∧
      inputs [⟨.addPrice (price 5), [], true⟩,
        ⟨.batchSetPrices ["gpt-4"] (price 15) [], [], true⟩] =
        some [("gpt-4", 5), ("gpt-4", 15)] ∧
      inputs [⟨.addPrice (price 5), [], true⟩, ⟨.batchDeletePrices ["gpt-4"], [], false⟩,
        ⟨.addPrice (price 15), [], true⟩] = some [("gpt-4", 5), ("gpt-4", 15)] := by
  decide +kernel

end

/-! ### A synchronisation and its transaction -/

inductive Stmt
  | begin
  | delete
  | insert
  | commit
  | reload
  deriving DecidableEq

/-- What has become of the transaction; one whose commit fails is rolled back by the database. -/
inductive Tx
  | none
  | open
  | committed
  | rolledBack
  deriving DecidableEq

/-- The statement whose error is returned, the rows, and the transaction. -/
structure Outcome where
  error : Option Stmt
  rows : List Price
  tx : Tx

def finish (fails : Stmt → Bool) (rows rows' : List Price) : Outcome :=
  if fails .insert then ⟨some .insert, rows, .rolledBack⟩
  else
    ⟨if fails .reload then some .reload else none, if fails .commit then rows else rows',
      if fails .commit then .rolledBack else .committed⟩

/-- `SyncPricing`; with nothing to insert two of the modes return while the transaction is open. -/
def syncPricing (fails : Stmt → Bool) (p : Pricing) (mode : Mode)
    (pricing rows : List Price) : Outcome :=
  match mode, sync mode p.prices pricing rows with
  | .overwrite, rows' =>
    if fails .begin then ⟨some .begin, rows, .none⟩
    else if fails .delete then ⟨some .delete, rows, .rolledBack⟩
    else rows'.elim ⟨none, rows, .open⟩ (finish fails rows)
  | .update, none => ⟨none, rows, if fails .begin then .none else .open⟩
  | .update, some rows' =>
    if fails .begin then ⟨some .begin, rows, .none⟩
    else if fails .delete then ⟨some .delete, rows, .rolledBack⟩
    else finish fails rows rows'
  | _, none => ⟨none, rows, .none⟩
  | _, some rows' => if fails .begin then ⟨some .begin, rows, .none⟩ else finish fails rows rows'

/-- The rows to insert, by the mode. -/
def inserts (mode : Mode) (pricing rows : List Price) : List Price :=
  match mode with
  | .update =>
    pricing.filter fun price => rows.any fun row => row.model = price.model && !row.locked
  | .overwrite =>
    pricing.filter fun price => !rows.any fun row => row.model = price.model && row.locked
  | .system | .add | .other => pricing.filter fun price => price.model ∉ rows.map Price.model

def keeps (mode : Mode) (pricing rows : List Price) : List Price :=
  match mode with
  | .update => rows.filter fun row => row.locked || row.model ∉ pricing.map Price.model
  | .overwrite => rows.filter Price.locked
  | .system | .add | .other => rows

/-- Without an error the table is as it should be, with one it is unchanged; and locked rows stay.
-/
def Correct (mode : Mode) (pricing rows : List Price) (r : Outcome) : Prop :=
  (if r.error = none then
      (r.tx = .none ∨ r.tx = .committed) ∧
        r.rows.Perm (keeps mode pricing rows ++ inserts mode pricing rows)
    else r.rows.Perm rows ∧ r.tx ≠ .open) ∧ ∀ row ∈ rows, row.locked → row ∈ r.rows

/-- No transaction stays open, and no error comes too late or not at all. -/
def Clean (fails : Stmt → Bool) (mode : Mode) (pricing rows : List Price) : Prop :=
  if inserts mode pricing rows = [] then
    (mode ≠ .overwrite ∧ mode ≠ .update) ∨ fails .begin ∨ mode = .overwrite ∧ fails .delete
  else
    fails .begin ∨ (mode = .overwrite ∨ mode = .update) ∧ fails .delete ∨ fails .insert ∨
      if fails .commit then fails .reload = true
      else fails .reload → (keeps mode pricing rows ++ inserts mode pricing rows).Perm rows

section
variable {fails : Stmt → Bool} {mode : Mode} {pricing rows : List Price}

lemma any_priceMap (h : Unique rows) (model : String) (f : Price → Bool) :
    (priceMap rows model).any f = rows.any fun row => row.model = model && f row := by
  rw [Bool.eq_iff_iff, any_eq_true]
  cases hprice : priceMap rows model with
  | none =>
    refine iff_of_false Bool.false_ne_true ?_
    rintro ⟨row, hrow, hf⟩
    have hmodel : row.model = model := by simpa using (Bool.and_eq_true_iff.mp hf).1
    have : (priceMap rows model).isSome := priceMap_isSome.mpr (hmodel ▸ mem_map_of_mem hrow)
    rw [hprice] at this
    cases this
  | some price =>
    have hmem : price ∈ rows := mem_reverse.mp (mem_of_find?_eq_some hprice)
    have hmodel := priceMap_model hprice
    constructor
    · intro hf
      exact ⟨price, hmem, by simpa [hmodel] using hf⟩
    · rintro ⟨row, hrow, hf⟩
      obtain ⟨hrowModel, hf⟩ : row.model = model ∧ f row = true := by simpa using hf
      obtain rfl := inj_on_of_nodup_map h hrow hmem (hrowModel.trans hmodel.symm)
      exact hf

lemma newPrices_eq (h : Unique rows) (mode : Mode) (pricing : List Price) :
    newPrices mode (priceMap rows) pricing = inserts mode pricing rows := by
  have hadd : ∀ price : Price, (priceMap rows price.model).isNone =
      decide (price.model ∉ rows.map Price.model) := by
    intro price
    rw [Bool.eq_iff_iff, decide_eq_true_iff, ← priceMap_isSome, Option.isNone_iff_eq_none,
      Option.not_isSome_iff_eq_none]
  cases mode with
  | update => exact filter_congr fun price _ => any_priceMap h _ _
  | overwrite => exact filter_congr fun price _ => congrArg _ (any_priceMap h _ _)
  | system | add | other => exact filter_congr fun price _ => hadd price

lemma mem_inserts_update (pricing : List Price) {row : Price} (hrow : row ∈ rows)
    (hlocked : row.locked = false) :
    row.model ∈ (inserts .update pricing rows).map Price.model ↔
      row.model ∈ pricing.map Price.model := by
  simp only [mem_map]
  refine exists_congr fun price => and_congr_left fun hmodel => ?_
  rw [inserts, mem_filter]
  refine and_iff_left (any_eq_true.mpr ⟨row, hrow, ?_⟩)
  simp [hmodel, hlocked]

lemma oldPrices_eq (h : Unique rows) (mode : Mode) (pricing : List Price) :
    oldPrices mode (priceMap rows) pricing rows = keeps mode pricing rows := by
  cases mode with
  | update =>
    refine filter_congr fun row hrow => ?_
    rw [newPrices_eq h]
    cases hlocked : row.locked with
    | true => rfl
    | false => simp only [mem_inserts_update pricing hrow hlocked]
  | overwrite | system | add | other => rfl

lemma keeps_of_nil (hmode : mode ≠ .overwrite) (hnil : inserts mode pricing rows = []) :
    keeps mode pricing rows = rows := by
  cases mode with
  | overwrite => exact absurd rfl hmode
  | update =>
    refine filter_eq_self.mpr fun row hrow => ?_
    cases hlocked : row.locked with
    | true => rfl
    | false =>
      have hnot := not_congr (mem_inserts_update pricing hrow hlocked)
      simpa [hnil] using hnot
  | system | add | other => rfl

lemma locked_mem_keeps (mode : Mode) (pricing : List Price) {row : Price} (hrow : row ∈ rows)
    (hlocked : row.locked = true) : row ∈ keeps mode pricing rows := by
  cases mode with
  | update | overwrite => exact mem_filter.mpr ⟨hrow, by simp [hlocked]⟩
  | system | add | other => exact hrow

lemma correct_of_error {stmt : Stmt} {tx : Tx} (htx : tx ≠ .open) :
    Correct mode pricing rows ⟨some stmt, rows, tx⟩ :=
  ⟨⟨List.Perm.refl _, htx⟩, fun _ hrow _ => hrow⟩

lemma not_correct_open : ¬Correct mode pricing rows ⟨none, rows, .open⟩ := by
  rintro ⟨⟨h | h, -⟩, -⟩ <;> cases h

lemma correct_none (hmode : mode ≠ .overwrite) (hnil : inserts mode pricing rows = []) :
    Correct mode pricing rows ⟨none, rows, .none⟩ := by
  refine ⟨⟨Or.inl rfl, ?_⟩, fun _ hrow _ => hrow⟩
  rw [keeps_of_nil hmode hnil, hnil, append_nil]

/-- A statement that fails ends the synchronisation with its error. -/
lemma correct_guard {b : Bool} {stmt : Stmt} {tx : Tx} {r : Outcome} (htx : tx ≠ .open) :
    Correct mode pricing rows (if b then ⟨some stmt, rows, tx⟩ else r) ↔
      b = true ∨ Correct mode pricing rows r := by
  cases b with
  | true => exact iff_of_true (correct_of_error htx) (Or.inl rfl)
  | false => simp

lemma correct_finish :
    Correct mode pricing rows
      (finish fails rows (keeps mode pricing rows ++ inserts mode pricing rows)) ↔
      fails .insert ∨ if fails .commit then fails .reload = true
        else fails .reload → (keeps mode pricing rows ++ inserts mode pricing rows).Perm rows := by
  have hlocked : ∀ row ∈ rows, row.locked = true → row ∈ keeps mode pricing rows ++
      inserts mode pricing rows :=
    fun row hrow h => mem_append_left _ (locked_mem_keeps mode pricing hrow h)
  rw [finish, correct_guard (by simp)]
  refine or_congr_right ?_
  by_cases hcommit : fails .commit = true <;> by_cases hreload : fails .reload = true
  · simpa [hcommit, hreload] using correct_of_error (by simp)
  · refine iff_of_false ?_ (by simp [hcommit, hreload])
    rintro ⟨h, -⟩
    simp [hcommit, hreload] at h
  · rw [if_pos hreload, if_neg hcommit, if_neg hcommit, if_neg hcommit]
    exact ⟨fun h _ => h.1.1, fun h => ⟨⟨h hreload, by simp⟩, hlocked⟩⟩
  · rw [if_neg hreload, if_neg hcommit, if_neg hcommit, if_neg hcommit]
    exact iff_of_true ⟨⟨Or.inr rfl, List.Perm.refl _⟩, hlocked⟩ fun h => absurd h hreload

/-- **A synchronisation** is correct exactly if it is `Clean`. -/
theorem syncPricing_correct_iff (table : Table) (patterns : List String)
    (fails : Stmt → Bool) (mode : Mode)
    (pricing : List Price) : Correct mode pricing table.rows
        (syncPricing fails ⟨priceMap table.rows, patterns⟩ mode pricing table.rows) ↔
      Clean fails mode pricing table.rows := by
  have hsync : sync mode (priceMap table.rows) pricing table.rows =
      if (inserts mode pricing table.rows).isEmpty then none
      else some (keeps mode pricing table.rows ++ inserts mode pricing table.rows) := by
    rw [sync_eq, newPrices_eq table.unique, oldPrices_eq table.unique]
  unfold syncPricing Clean
  rw [hsync]
  by_cases hnil : inserts mode pricing table.rows = []
  · rw [if_pos hnil, if_pos (isEmpty_iff.mpr hnil)]
    cases mode with
    | overwrite =>
      rw [correct_guard (by simp), correct_guard (by simp)]
      simp [not_correct_open]
    | update =>
      dsimp only
      split_ifs with hbegin
      · exact iff_of_true (correct_none (by simp) hnil) (by simp [hbegin])
      · exact iff_of_false not_correct_open (by simp [hbegin])
    | system | add | other => exact iff_of_true (correct_none (by simp) hnil) (by simp)
  · rw [if_neg hnil, if_neg (mt List.isEmpty_iff.mp hnil)]
    cases mode with
    | overwrite | update =>
      dsimp only [Option.elim]
      rw [correct_guard (by simp), correct_guard (by simp), correct_finish]
      simp
    | system | add | other =>
      rw [correct_guard (by simp), correct_finish]
      simp

/-- Transactions left open, a reload that fails after the commit, and a commit that fails. -/
theorem sync_leaves_open :
    let price (model : String) : Price := { type := .tokens, input := 5, output := 0, model }
    let result (fails : Stmt → Bool) (mode : Mode) (pricing rows : List Price) :
        Option Stmt × ℕ × Tx :=
      let r := syncPricing fails ⟨priceMap rows, []⟩ mode pricing rows
      (r.error, r.rows.length, r.tx)
    result (fun _ => false) .overwrite [] [price "gpt-4"] = (none, 1, .open) ∧
      result (fun _ => false) .update [price "gpt-5"] [price "gpt-4"] = (none, 1, .open) ∧
      result (· = .reload) .add [price "gpt-5"] [price "gpt-4"] = (some .reload, 2, .committed) ∧
      result (· = .commit) .add [price "gpt-5"] [price "gpt-4"] = (none, 1, .rolledBack) := by
  decide +kernel

end

end Tokilake.Billing.PriceTable
