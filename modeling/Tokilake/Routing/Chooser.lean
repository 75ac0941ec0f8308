import Mathlib.Data.List.AList
import Mathlib.Data.List.Sort
import Tokilake.Lib.Text
import Tokilake.Routing.Cooldowns

/-! # The channel chooser

`Load` builds the tables of the chooser, and `Next` draws a channel from the first tier with an
eligible one.  The order of the patterns is the argument `order`.

* `built_load`, `getChannel_load`: what the tables hold;
* `consistent_loaded`: tables and channels agree after loads and flips. -/

namespace Tokilake.Routing

open Lib List
open Routing.Cooldowns (int64 Store isInCooldown)

structure Channel where
  id : ℤ
  group : String
  models : String
  weight : UInt64 := 1
  priority : ℤ := 0
  deriving DecidableEq

structure ChannelRows where
  rows : List Channel
  nodup : (rows.map Channel.id).Nodup

structure ChannelChoice where
  channel : Channel
  disable : Bool := false
  deriving DecidableEq

abbrev Tiers := AList fun _ : ℤ => List ℤ

structure ChannelsChooser where
  channels : AList fun _ : ℤ => ChannelChoice := ∅
  channelGroups : AList fun _ : String × String => Tiers := ∅
  newMatch : List String := []

/-! ### Load -/

def names (list : String) : List String :=
  ((Text.split ',' list).map Text.trimSpace).filter (· ≠ "")

def Channel.Offers (ch : Channel) (group model : String) : Prop :=
  group ∈ names ch.group ∧ model ∈ names ch.models

def isPattern (model : String) : Bool := model.toList.getLast? = some '*'

def defaultChannelWeight : UInt64 := 1

def Channel.withWeight (ch : Channel) : Channel :=
  if ch.weight = 0 then { ch with weight := defaultChannelWeight } else ch

variable (cc : ChannelsChooser)

def ChannelsChooser.offer (ch : Channel) (group model : String) : ChannelsChooser :=
  let tiers := (cc.channelGroups.lookup (group, model)).getD ∅
  let ids := (tiers.lookup ch.priority).getD []
  { cc with
    channelGroups :=
      cc.channelGroups.insert (group, model) (tiers.insert ch.priority (ids ++ [ch.id]))
    newMatch := if isPattern model then cc.newMatch.insert model else cc.newMatch }

def ChannelsChooser.addChannel (row : Channel) : ChannelsChooser :=
  let ch := row.withWeight
  (names ch.group).foldl (fun cc group =>
      (names ch.models).foldl (fun cc model => cc.offer ch group model) cc)
    { cc with channels := cc.channels.insert ch.id { channel := ch } }

variable (set : ChannelRows)

def load : ChannelsChooser := set.rows.foldl ChannelsChooser.addChannel {}

def ChannelsChooser.rule (group model : String) : Option (List (List ℤ)) :=
  (cc.channelGroups.lookup (group, model)).map fun tiers =>
    (tiers.keys.insertionSort (· ≥ ·)).map fun priority => (tiers.lookup priority).getD []

def ChannelsChooser.hasGroup (group : String) : Bool :=
  cc.channelGroups.keys.any fun key => key.1 = group

def ChannelsChooser.getChannel (channelId : ℤ) : Option Channel :=
  (cc.channels.lookup channelId).map ChannelChoice.channel

def ChannelsChooser.changeStatus (channelId : ℤ) (status : Bool) : ChannelsChooser :=
  match cc.channels.lookup channelId with
  | none => cc
  | some choice =>
    { cc with channels := cc.channels.insert channelId { choice with disable := !status } }

/-! ### Next -/

abbrev ChannelsFilterFunc := ℤ → ChannelChoice → Bool

def filterChannelId (skipChannelIds : List ℤ) : ChannelsFilterFunc :=
  fun channelId _ => channelId ∈ skipChannelIds

structure Query where
  group : String
  modelName : String
  filters : List ChannelsFilterFunc := []
  cooldowns : Store := fun _ => none
  now : ℤ := 0

inductive Result
  | channel (ch : Channel)
  | error (text : String)
  | panic
  deriving DecidableEq

def ChannelsChooser.validChannels (q : Query) (channelIds : List ℤ) : List ChannelChoice :=
  channelIds.filterMap fun channelId =>
    (cc.channels.lookup channelId).filter fun choice =>
      !choice.disable && !isInCooldown q.cooldowns q.now channelId q.modelName &&
        !q.filters.any fun filter => filter channelId choice

def ChannelChoice.weight (choice : ChannelChoice) : ℤ := int64 choice.channel.weight.toNat

def totalWeight (valid : List ChannelChoice) : ℤ :=
  valid.foldl (fun total choice => int64 (total + choice.weight)) 0

def pick : List ChannelChoice → ℤ → Option Channel
  | [], _ => none
  | choice :: valid, choiceWeight =>
    if int64 (choiceWeight - choice.weight) < 0 then some choice.channel
    else pick valid (int64 (choiceWeight - choice.weight))

def choose (draw : ℕ) : List ChannelChoice → Option Result
  | [] => none
  | [choice] => some (.channel choice.channel)
  | valid =>
    if totalWeight valid ≤ 0 then some .panic
    else (pick valid (draw % totalWeight valid)).map .channel

def ChannelsChooser.balancer (q : Query) (draw : ℕ) (channelIds : List ℤ) :
    Option Result := choose draw (cc.validChannels q channelIds)

def matchesPattern (modelName pattern : String) : Bool :=
  (pattern.toList.rdropWhile (· = '*')).isPrefixOf modelName.toList

def getModelsWithMatch (order : List String) (modelName : String) : String :=
  (order.find? (matchesPattern modelName)).getD ""

def ChannelsChooser.next (order : List String) (draw : ℕ) (q : Query) : Result :=
  if ¬ cc.hasGroup q.group then .error "group not found"
  else match (cc.rule q.group q.modelName).or
      (cc.rule q.group (getModelsWithMatch order q.modelName)) with
    | none => .error "model not found"
    | some channelsPriority =>
      if channelsPriority.length = 0 then .error "channel not found"
      else (channelsPriority.findSome? (cc.balancer q draw)).getD (.error "channel not found")

/-! ### What Load builds -/

variable {cc : ChannelsChooser} {ch : Channel} {group model : String}

def ChannelsChooser.ids (cc : ChannelsChooser) (group model : String) (priority : ℤ) : List ℤ :=
  (((cc.channelGroups.lookup (group, model)).getD ∅).lookup priority).getD []

structure Built (cc : ChannelsChooser) (seen : List (Channel × String × String)) : Prop where
  entry : ∀ group model, (cc.channelGroups.lookup (group, model)).isSome ↔
    ∃ ch, (ch, group, model) ∈ seen
  tier : ∀ group model priority id, id ∈ cc.ids group model priority ↔
    ∃ ch, (ch, group, model) ∈ seen ∧ ch.priority = priority ∧ ch.id = id
  pattern : ∀ model, model ∈ cc.newMatch ↔
    isPattern model = true ∧ ∃ ch group, (ch, group, model) ∈ seen
  nodup : cc.newMatch.Nodup

lemma built_empty : Built {} [] := ⟨by simp, by simp [ChannelsChooser.ids], by simp, nodup_nil⟩

lemma isSome_lookup_offer (g m : String) :
    ((cc.offer ch group model).channelGroups.lookup (g, m)).isSome ↔
      (cc.channelGroups.lookup (g, m)).isSome ∨ (g, m) = (group, model) := by
  by_cases hkey : (g, m) = (group, model)
  · cases hkey
    simp [ChannelsChooser.offer]
  · rw [ChannelsChooser.offer, AList.lookup_insert_ne hkey]
    simp [hkey]

lemma mem_ids_offer (g m : String) (priority id : ℤ) :
    id ∈ (cc.offer ch group model).ids g m priority ↔
      id ∈ cc.ids g m priority ∨ (g, m) = (group, model) ∧ ch.priority = priority ∧ ch.id = id := by
  unfold ChannelsChooser.ids
  by_cases hkey : (g, m) = (group, model)
  · cases hkey
    rw [ChannelsChooser.offer, AList.lookup_insert, Option.getD_some]
    by_cases hp : priority = ch.priority
    · subst hp
      simp [eq_comm]
    · rw [AList.lookup_insert_ne hp]
      simp [Ne.symm hp]
  · rw [ChannelsChooser.offer, AList.lookup_insert_ne hkey]
    simp [hkey]

lemma mem_newMatch_offer (m : String) : m ∈ (cc.offer ch group model).newMatch ↔
      m ∈ cc.newMatch ∨ isPattern m = true ∧ m = model := by
  unfold ChannelsChooser.offer
  by_cases hp : isPattern model = true
  · simp only [hp, if_true, mem_insert_iff]
    constructor
    · rintro (rfl | h)
      · exact .inr ⟨hp, rfl⟩
      · exact .inl h
    · rintro (h | ⟨-, rfl⟩)
      · exact .inr h
      · exact .inl rfl
  · simp only [hp, Bool.false_eq_true, if_false]
    refine ⟨.inl, ?_⟩
    rintro (h | ⟨hm, rfl⟩)
    · exact h
    · exact absurd hm hp

lemma built_offer {seen : List (Channel × String × String)} (h : Built cc seen) :
    Built (cc.offer ch group model) (seen ++ [(ch, group, model)]) := by
  constructor
  · intro g m
    rw [isSome_lookup_offer, h.entry]
    simp [exists_or]
  · intro g m priority id
    rw [mem_ids_offer, h.tier]
    simp only [mem_append, mem_singleton, Prod.mk.injEq, or_and_right, exists_or]
    refine or_congr Iff.rfl ⟨?_, ?_⟩
    · rintro ⟨hkey, hrest⟩
      exact ⟨ch, ⟨rfl, hkey⟩, hrest⟩
    · rintro ⟨_, ⟨rfl, hkey⟩, hrest⟩
      exact ⟨hkey, hrest⟩
  · intro m
    rw [mem_newMatch_offer, h.pattern, ← and_or_left]
    simp [exists_or]
  · unfold ChannelsChooser.offer
    by_cases hp : isPattern model = true
    · simpa [hp] using h.nodup.insert
    · simpa [hp] using h.nodup

def Channel.offered (ch : Channel) : List (Channel × String × String) :=
  (names ch.group).flatMap fun group => (names ch.models).map fun model => (ch, group, model)

lemma mem_offered {c : Channel} :
    (c, group, model) ∈ ch.offered ↔ c = ch ∧ ch.Offers group model := by
  simp only [Channel.offered, mem_flatMap, mem_map, Prod.mk.injEq, Channel.Offers]
  constructor
  · rintro ⟨g, hg, m, hm, rfl, rfl, rfl⟩
    exact ⟨rfl, hg, hm⟩
  · rintro ⟨rfl, hg, hm⟩
    exact ⟨group, hg, model, hm, rfl, rfl, rfl⟩

lemma built_foldl {offers : List (Channel × String × String)} :
    ∀ {cc : ChannelsChooser} {seen : List (Channel × String × String)}, Built cc seen →
      Built (offers.foldl (fun cc o => cc.offer o.1 o.2.1 o.2.2) cc) (seen ++ offers) := by
  induction offers with
  | nil =>
    intro cc seen h
    simpa using h
  | cons o offers ih =>
    intro cc seen h
    have ho : Built (cc.offer o.1 o.2.1 o.2.2) (seen ++ [o]) := built_offer h
    simpa using ih ho

lemma addChannel_eq (cc : ChannelsChooser) (row : Channel) :
    cc.addChannel row = row.withWeight.offered.foldl (fun cc o => cc.offer o.1 o.2.1 o.2.2)
      { cc with
        channels := cc.channels.insert row.withWeight.id { channel := row.withWeight } } := by
  simp only [ChannelsChooser.addChannel, Channel.offered, foldl_flatMap, foldl_map]

lemma channels_foldl_offer {offers : List (Channel × String × String)} : ∀ {cc : ChannelsChooser},
      (offers.foldl (fun cc o => cc.offer o.1 o.2.1 o.2.2) cc).channels = cc.channels := by
  induction offers with
  | nil => exact rfl
  | cons o offers ih => exact ih

lemma built_addChannel {seen : List (Channel × String × String)} {row : Channel}
    (h : Built cc seen) : Built (cc.addChannel row) (seen ++ row.withWeight.offered) := by
  rw [addChannel_eq]
  exact built_foldl ⟨h.entry, h.tier, h.pattern, h.nodup⟩

lemma built_rows {rows : List Channel} :
    ∀ {cc : ChannelsChooser} {seen : List (Channel × String × String)}, Built cc seen →
      Built (rows.foldl ChannelsChooser.addChannel cc)
        (seen ++ rows.flatMap fun row => row.withWeight.offered) := by
  induction rows with
  | nil =>
    intro cc seen h
    simpa using h
  | cons row rows ih =>
    intro cc seen h
    have hrow : Built (cc.addChannel row) (seen ++ row.withWeight.offered) := built_addChannel h
    simpa using ih hrow

lemma built_load : Built (load set) (set.rows.flatMap fun row => row.withWeight.offered) := by
  rw [load]
  simpa using @built_rows set.rows _ _ built_empty

/-! ### The channels that are loaded -/

@[simp] lemma withWeight_id (row : Channel) : row.withWeight.id = row.id := by
  unfold Channel.withWeight
  split_ifs <;> rfl

lemma getChannel_addChannel (cc : ChannelsChooser) (row : Channel) (id : ℤ) :
    (cc.addChannel row).getChannel id =
      if id = row.id then some row.withWeight else cc.getChannel id := by
  rw [ChannelsChooser.getChannel, addChannel_eq, channels_foldl_offer]
  by_cases hid : id = row.id
  · rw [withWeight_id, hid, AList.lookup_insert, if_pos rfl]
    rfl
  · rw [withWeight_id, AList.lookup_insert_ne hid, if_neg hid]
    rfl

lemma getChannel_rows {rows : List Channel} (hnodup : (rows.map Channel.id).Nodup) :
    ∀ {cc : ChannelsChooser}, (∀ row ∈ rows, cc.getChannel row.id = none) → ∀ {id ch},
      (rows.foldl ChannelsChooser.addChannel cc).getChannel id = some ch ↔
        cc.getChannel id = some ch ∨ ∃ row ∈ rows, row.id = id ∧ row.withWeight = ch := by
  induction rows with
  | nil => simp
  | cons row rows ih =>
    intro cc hnew id ch
    rw [map_cons, nodup_cons] at hnodup
    have hrest : ∀ r ∈ rows, (cc.addChannel row).getChannel r.id = none := by
      intro r hr
      have hne : r.id ≠ row.id := by
        intro heq
        exact hnodup.1 (heq ▸ mem_map_of_mem hr)
      rw [getChannel_addChannel, if_neg hne]
      exact hnew r (mem_cons_of_mem _ hr)
    rw [foldl_cons, ih hnodup.2 hrest, getChannel_addChannel]
    by_cases hid : id = row.id
    · have hnone := hnew row mem_cons_self
      subst hid
      simp [hnone]
    · simp [hid, Ne.symm hid]

lemma getChannel_load {set : ChannelRows} {id : ℤ} :
    (load set).getChannel id = some ch ↔ ∃ row ∈ set.rows, row.id = id ∧ row.withWeight = ch := by
  rw [load, getChannel_rows set.nodup (by simp [ChannelsChooser.getChannel])]
  simp [ChannelsChooser.getChannel]

def ChannelsChooser.Has (cc : ChannelsChooser) (ch : Channel) : Prop :=
  cc.getChannel ch.id = some ch

structure Consistent (cc : ChannelsChooser) : Prop where
  keyed : ∀ id ch, cc.getChannel id = some ch → ch.id = id
  entry : ∀ group model, (cc.channelGroups.lookup (group, model)).isSome ↔
    ∃ ch, cc.Has ch ∧ ch.Offers group model
  tier : ∀ group model priority id, id ∈ cc.ids group model priority ↔
    ∃ ch, cc.Has ch ∧ ch.Offers group model ∧ ch.priority = priority ∧ ch.id = id
  pattern : ∀ model, model ∈ cc.newMatch ↔
    isPattern model = true ∧ ∃ ch group, cc.Has ch ∧ ch.Offers group model
  nodup : cc.newMatch.Nodup

lemma consistent_load : Consistent (load set) := by
  have hbuilt := built_load set
  have hhas : ∀ ch, (load set).Has ch ↔ ∃ row ∈ set.rows, row.withWeight = ch := by
    intro ch
    rw [ChannelsChooser.Has, getChannel_load]
    constructor
    · rintro ⟨row, hrow, -, heq⟩
      exact ⟨row, hrow, heq⟩
    · rintro ⟨row, hrow, rfl⟩
      exact ⟨row, hrow, (withWeight_id row).symm, rfl⟩
  have hmem : ∀ ch group model,
      (ch, group, model) ∈ (set.rows.flatMap fun row => row.withWeight.offered) ↔
        (load set).Has ch ∧ ch.Offers group model := by
    intro ch group model
    simp only [mem_flatMap, mem_offered, hhas]
    constructor
    · rintro ⟨row, hrow, rfl, hoffers⟩
      exact ⟨⟨row, hrow, rfl⟩, hoffers⟩
    · rintro ⟨⟨row, hrow, rfl⟩, hoffers⟩
      exact ⟨row, hrow, rfl, hoffers⟩
  refine ⟨fun id ch h => ?_, ?_, ?_, ?_, hbuilt.nodup⟩
  · obtain ⟨row, -, rfl, rfl⟩ := getChannel_load.mp h
    exact withWeight_id row
  · simpa [hmem] using hbuilt.entry
  · simpa [hmem, and_assoc] using hbuilt.tier
  · simpa [hmem] using hbuilt.pattern

lemma getChannel_changeStatus (cc : ChannelsChooser) (channelId id : ℤ) (status : Bool) :
    (cc.changeStatus channelId status).getChannel id = cc.getChannel id := by
  unfold ChannelsChooser.changeStatus
  cases hlook : cc.channels.lookup channelId with
  | none => rfl
  | some choice =>
    by_cases hid : id = channelId
    · subst hid
      simp [ChannelsChooser.getChannel, hlook]
    · simp [ChannelsChooser.getChannel, AList.lookup_insert_ne hid]

lemma consistent_changeStatus (h : Consistent cc) (channelId : ℤ) (status : Bool) :
    Consistent (cc.changeStatus channelId status) := by
  have htables : (cc.changeStatus channelId status).channelGroups = cc.channelGroups ∧
      (cc.changeStatus channelId status).newMatch = cc.newMatch := by
    unfold ChannelsChooser.changeStatus
    cases cc.channels.lookup channelId <;> exact ⟨rfl, rfl⟩
  have hhas : (cc.changeStatus channelId status).Has = cc.Has := by
    funext ch
    rw [ChannelsChooser.Has, ChannelsChooser.Has, getChannel_changeStatus]
  refine ⟨?_, ?_, ?_, ?_, ?_⟩
  · simpa only [getChannel_changeStatus] using h.keyed
  · simpa only [htables.1, hhas] using h.entry
  · simpa only [ChannelsChooser.ids, htables.1, hhas] using h.tier
  · simpa only [htables.2, hhas] using h.pattern
  · simpa only [htables.2] using h.nodup

def loaded (changes : List (ℤ × Bool)) : ChannelsChooser :=
  changes.foldl (fun cc change => cc.changeStatus change.1 change.2) (load set)

lemma consistent_loaded (changes : List (ℤ × Bool)) : Consistent (loaded set changes) := by
  unfold loaded
  induction changes using reverseRecOn with
  | nil => exact consistent_load set
  | append_singleton changes change ih =>
    rw [foldl_append]
    exact consistent_changeStatus ih change.1 change.2

end Tokilake.Routing
