import Tokilake.Routing.Chooser

/-! # Deleting a model from channels

`BatchDelModelChannels` takes out the first part of the list that equals the model; the update of a
row skips an empty text.

* `batchDelModelChannels_iff`: when the model is gone afterwards. -/

namespace Tokilake.Routing.ModelDelete

open Lib Text

def without (value models : String) : String := join ',' ((split ',' models).erase value)

def updateRaw (fails : Bool) (ch : Channel) (models : String) : Channel :=
  if fails || models = "" then ch else { ch with models }

/-- After the query for the channels; the updates of some of them fail. -/
def batchDelModelChannels (fails : ℤ → Bool) (value : String) (ids : List ℤ) (rows : List Channel) :
    List Channel :=
  rows.map fun ch =>
    if ch.id ∈ ids then updateRaw (fails ch.id) ch (without value ch.models) else ch

def Deleted (value before after : String) : Prop :=
  value ∉ names after ∧ ∀ model ∈ names before, model ≠ value → model ∈ names after

def partNames (parts : List String) : List String := (parts.map trimSpace).filter (· ≠ "")

/-- The update goes through and leaves a part, and the model is in the first equal part only. -/
def Removable (fails : Bool) (value models : String) : Prop :=
  let rest := (split ',' models).erase value
  if fails = true ∨ rest = [] ∨ rest = [""] then value ∉ names models
  else value ∉ partNames rest ∧
    (value ∈ split ',' models → trimSpace value ≠ value → trimSpace value ≠ "" →
      trimSpace value ∈ partNames rest)

section
variable {fails : Bool} {value models model : String} {parts : List String}

lemma mem_partNames : model ∈ partNames parts ↔ (∃ part ∈ parts, trimSpace part = model) ∧
    model ≠ "" := by
  simp [partNames]

lemma names_without (h : without value models ≠ "") :
    names (without value models) = partNames ((split ',' models).erase value) := by
  have hne : (split ',' models).erase value ≠ [] := by
    intro hnil
    rw [without, hnil] at h
    exact h rfl
  rw [names, without, split_join hne fun part hpart =>
    not_mem_of_mem_split (List.mem_of_mem_erase hpart)]
  rfl

lemma partNames_erase :
    (∀ model ∈ partNames parts, model ≠ value → model ∈ partNames (parts.erase value)) ↔
      (value ∈ parts → trimSpace value ≠ value → trimSpace value ≠ "" →
        trimSpace value ∈ partNames (parts.erase value)) := by
  constructor
  · intro h hmem hne hempty
    exact h _ (mem_partNames.mpr ⟨⟨value, hmem, rfl⟩, hempty⟩) hne
  · intro h model hmodel hne
    obtain ⟨⟨part, hpart, rfl⟩, hempty⟩ := mem_partNames.mp hmodel
    by_cases heq : part = value
    · subst heq
      exact h hpart hne hempty
    · exact mem_partNames.mpr ⟨⟨part, (List.mem_erase_of_ne heq).mpr hpart, rfl⟩, hempty⟩

lemma join_eq_empty_iff : join ',' parts = "" ↔ parts = [] ∨ parts = [""] := by
  rw [join, String.ofList_eq_empty_iff]
  rcases parts with _ | ⟨part, _ | ⟨part', parts⟩⟩
  · simp
  · simp
  · simp [List.intercalate_cons_cons]

lemma deleted_self : Deleted value models models ↔ value ∉ names models :=
  and_iff_left fun _ h _ => h

lemma deleted_iff (ch : Channel) :
    Deleted value ch.models (updateRaw fails ch (without value ch.models)).models ↔
      Removable fails value ch.models := by
  have hskip : (fails || decide (without value ch.models = "")) = true ↔
      fails = true ∨ (split ',' ch.models).erase value = [] ∨
        (split ',' ch.models).erase value = [""] := by
    rw [Bool.or_eq_true, decide_eq_true_eq, without, join_eq_empty_iff]
  unfold updateRaw Removable
  dsimp only
  by_cases h : (fails || decide (without value ch.models = "")) = true
  · rw [if_pos h, if_pos (hskip.mp h), deleted_self]
  · have hne : without value ch.models ≠ "" := fun heq => h (by simp [heq])
    rw [if_neg h, if_neg (mt hskip.mpr h), Deleted, names_without hne]
    exact and_congr_right fun _ => partNames_erase

end

/-- **The model is deleted from all the channels** exactly if their lists are `Removable`. -/
theorem batchDelModelChannels_iff (fails : ℤ → Bool) (value : String) (ids : List ℤ)
    (rows : List Channel) :
    List.Forall₂ (fun ch ch' => ch.id ∈ ids → Deleted value ch.models ch'.models) rows
        (batchDelModelChannels fails value ids rows) ↔
      ∀ ch ∈ rows, ch.id ∈ ids → Removable (fails ch.id) value ch.models := by
  rw [batchDelModelChannels, List.forall₂_map_right_iff, List.forall₂_same]
  refine forall₂_congr fun ch _ => forall_congr' fun hid => ?_
  rw [if_pos hid]
  exact deleted_iff ch

/-- The only model stays, one that is there twice, and one after a space. -/
theorem model_stays : let after (models : String) : List String :=
      (batchDelModelChannels (fun _ => false) "a" [1] [⟨1, "g", models, 1, 0⟩]).map Channel.models
    after "a" = ["a"] ∧ after "a,a,b" = ["a,b"] ∧ after "b, a" = ["b, a"] ∧
      "a" ∈ names "a" ∧ "a" ∈ names "a,b" ∧ "a" ∈ names "b, a" := by
  decide +kernel

end Tokilake.Routing.ModelDelete
