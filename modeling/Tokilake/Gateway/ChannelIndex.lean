import Mathlib.Data.List.AList
import Mathlib.Data.Nat.Count

/-! # The channel index

`select_from_tiers` goes through tiers of channel ids, collects the eligible channels of a tier and
draws one.

* `proportional_iff`: when the draw is in proportion to the weights. -/

namespace Tokilake.Gateway

structure ChannelEntry where
  id : ℤ
  name : String
  provider : String
  models : String
  baseUrl : Option String := none
  apiKey : Option String := none
  status : ℤ := 1
  weight : ℕ := 1
  group : String := "default"
  priority : ℤ := 0
  modelMapping : Option String := none
  deriving DecidableEq

structure ChannelIndex where
  channels : AList fun _ : ℤ => ChannelEntry
  cooldowns : AList fun _ : String => ℕ
  keyed : ∀ id ch, channels.lookup id = some ch → ch.id = id

def ChannelIndex.new : ChannelIndex := ⟨∅, ∅, by simp⟩

variable (index : ChannelIndex)

def ChannelIndex.get (id : ℤ) : Option ChannelEntry := index.channels.lookup id

def ChannelIndex.channelCount : ℕ := index.channels.entries.length

def ChannelIndex.upsert (ch : ChannelEntry) : ChannelIndex where
  channels := index.channels.insert ch.id ch
  cooldowns := index.cooldowns
  keyed := by
    intro id other h
    by_cases hid : id = ch.id
    · subst hid
      rw [AList.lookup_insert] at h
      rw [← Option.some.inj h]
    · rw [AList.lookup_insert_ne hid] at h
      exact index.keyed id other h

def ChannelIndex.remove (id : ℤ) : ChannelIndex where
  channels := index.channels.erase id
  cooldowns := index.cooldowns
  keyed := by
    intro other ch h
    by_cases hid : other = id
    · rw [hid, AList.lookup_erase] at h
      cases h
    · rw [AList.lookup_erase_ne hid] at h
      exact index.keyed other ch h

def cooldownKey (id : ℤ) (model : String) : String := toString id ++ ":" ++ model

def ChannelIndex.cooling (now : ℕ) (id : ℤ) (model : String) : Bool :=
  match index.cooldowns.lookup (cooldownKey id model) with
  | some ending => now < ending
  | none => false

def ChannelIndex.clearCooldown (id : ℤ) (model : String) : ChannelIndex :=
  { index with cooldowns := index.cooldowns.erase (cooldownKey id model) }

/-! ### The draw -/

def scan (now : ℕ) (model : String) (skipIds : List ℤ) :
    ChannelIndex → List ℤ → List (ℤ × ℕ) × ChannelIndex
  | index, [] => ([], index)
  | index, id :: tier =>
    if id ∈ skipIds then scan now model skipIds index tier
    else if index.cooling now id model then scan now model skipIds index tier
    else
      let index := index.clearCooldown id model
      match index.get id with
      | none => scan now model skipIds index tier
      | some ch =>
        if ch.status ≠ 1 then scan now model skipIds index tier
        else
          let (valid, index) := scan now model skipIds index tier
          ((id, max ch.weight 1) :: valid, index)

def pickFrom : List (ℤ × ℕ) → ℕ → Option ℤ
  | [], _ => none
  | (id, weight) :: valid, remaining =>
    if remaining - weight = 0 ∨ weight > remaining - weight then some id
    else pickFrom valid (remaining - weight)

def selectFromTiers (now pick : ℕ) (model : String) (skipIds : List ℤ) :
    ChannelIndex → List (List ℤ) → Option ChannelEntry × ChannelIndex
  | index, [] => (none, index)
  | index, tier :: tiers =>
    let (valid, index) := scan now model skipIds index tier
    match valid with
    | [] => selectFromTiers now pick model skipIds index tiers
    | [c] => (index.get c.1, index)
    | c :: valid => (index.get ((pickFrom (c :: valid) pick).getD c.1), index)

def totalWeight (valid : List (ℤ × ℕ)) : ℕ := valid.foldr (fun c total => c.2 + total) 0

/-! ### What a scan collects -/

variable {now pick : ℕ} {model : String} {skipIds tier : List ℤ} {tiers : List (List ℤ)}
  {index : ChannelIndex}

structure ScanOk (index : ChannelIndex) (r : List (ℤ × ℕ) × ChannelIndex) : Prop where
  channels : r.2.channels = index.channels
  entry : ∀ c ∈ r.1, ∃ ch, index.get c.1 = some ch ∧ c.2 = max ch.weight 1

lemma scan_spec (now : ℕ) (model : String) (skipIds : List ℤ) (tier : List ℤ) :
    ∀ index, ScanOk index (scan now model skipIds index tier) := by
  induction tier with
  | nil => exact fun index => ⟨rfl, by simp [scan]⟩
  | cons id tier ih =>
    intro index
    rw [scan]
    by_cases hskip : id ∈ skipIds
    · rw [if_pos hskip]
      exact ih index
    rw [if_neg hskip]
    split_ifs with hcool
    · exact ih index
    -- taking out a cooldown leaves the channels alone
    obtain ⟨hchannels, hentry⟩ := ih (index.clearCooldown id model)
    have hget : ∀ j, (index.clearCooldown id model).get j = index.get j := fun _ => rfl
    cases hch : index.get id with
    | none =>
      simp only [hget, hch]
      exact ⟨hchannels, hentry⟩
    | some ch =>
      simp only [hget, hch]
      split_ifs with hstatus
      · exact ⟨hchannels, hentry⟩
      refine ⟨hchannels, fun c hc => ?_⟩
      rcases List.mem_cons.mp hc with rfl | hc
      · exact ⟨ch, hch, rfl⟩
      · exact hentry c hc

/-! ### How often a channel is drawn -/

lemma pickFrom_first {c : ℤ × ℕ} {valid : List (ℤ × ℕ)} (hpick : pick < 2 * c.2) :
    pickFrom (c :: valid) pick = some c.1 := by
  rw [pickFrom, if_pos (by omega)]

lemma select_one {c : ℤ × ℕ} (h : (scan now model skipIds index tier).1 = [c]) :
    (selectFromTiers now pick model skipIds index (tier :: tiers)).1 = index.get c.1 := by
  rw [ChannelIndex.get, ← (scan_spec now model skipIds tier index).channels, selectFromTiers]
  simp only [h]
  rfl

lemma select_many {c d : ℤ × ℕ} {valid : List (ℤ × ℕ)}
    (h : (scan now model skipIds index tier).1 = c :: d :: valid) :
    (selectFromTiers now pick model skipIds index (tier :: tiers)).1 =
      index.get ((pickFrom (c :: d :: valid) pick).getD c.1) := by
  rw [ChannelIndex.get, ← (scan_spec now model skipIds tier index).channels, selectFromTiers]
  simp only [h]
  rfl

def Proportional (now : ℕ) (model : String) (skipIds : List ℤ) (index : ChannelIndex)
    (tier : List ℤ) (tiers : List (List ℤ)) : Prop :=
  ∀ c ∈ (scan now model skipIds index tier).1,
    Nat.count (fun pick => (selectFromTiers now pick model skipIds index (tier :: tiers)).1.map
      ChannelEntry.id = some c.1) (totalWeight (scan now model skipIds index tier).1) = c.2

/-- **When draws are proportional**: with at most one eligible channel. -/
theorem proportional_iff (now : ℕ) (model : String) (skipIds : List ℤ) (index : ChannelIndex)
    (tier : List ℤ) (tiers : List (List ℤ)) : Proportional now model skipIds index tier tiers ↔
      (scan now model skipIds index tier).1.length ≤ 1 := by
  obtain ⟨-, hentry⟩ := scan_spec now model skipIds tier index
  -- what is collected can be found again, under its own id
  have hget : ∀ c ∈ (scan now model skipIds index tier).1,
      (index.get c.1).map ChannelEntry.id = some c.1 := by
    intro c hc
    obtain ⟨ch, hch, -⟩ := hentry c hc
    rw [hch, Option.map_some, index.keyed c.1 ch hch]
  have hpos : ∀ c ∈ (scan now model skipIds index tier).1, 0 < c.2 := by
    intro c hc
    obtain ⟨ch, -, hweight⟩ := hentry c hc
    omega
  unfold Proportional
  match hvalid : (scan now model skipIds index tier).1 with
  | [] => simp
  | [c] =>
    rw [hvalid] at hget
    refine iff_of_true (fun c' hc' => ?_) (by simp)
    obtain rfl := List.mem_singleton.mp hc'
    have htotal : totalWeight [c'] = c'.2 := by simp [totalWeight]
    rw [htotal, Nat.count_iff_forall]
    intro pick _
    rw [select_one hvalid]
    exact hget c' List.mem_cons_self
  | c :: d :: valid =>
    rw [hvalid] at hget hpos
    refine iff_of_false (fun hall => ?_) (by simp)
    have hcount := hall c List.mem_cons_self
    have hc := hpos c List.mem_cons_self
    have hd := hpos d (by simp)
    have hfirst : ∀ pick < c.2 + 1, (selectFromTiers now pick model skipIds index
        (tier :: tiers)).1.map ChannelEntry.id = some c.1 := by
      intro pick hpick
      rw [select_many hvalid, pickFrom_first (by omega)]
      exact hget c List.mem_cons_self
    have htotal : c.2 + 1 ≤ totalWeight (c :: d :: valid) := by
      simp only [totalWeight, List.foldr_cons]
      omega
    have hmore := (Nat.count_iff_forall.mpr hfirst).symm.le.trans (Nat.count_monotone _ htotal)
    omega

def twoChannels : ChannelIndex :=
  (ChannelIndex.new.upsert ⟨1, "a", "openai", "gpt", none, none, 1, 1, "default", 0, none⟩).upsert
    ⟨2, "b", "openai", "gpt", none, none, 1, 1, "default", 0, none⟩

/-- The first of two channels of the same weight is selected for both numbers, the second never. -/
theorem equal_weights : (List.range 2).map (fun pick =>
      (selectFromTiers 0 pick "gpt" [] twoChannels [[1, 2]]).1.map ChannelEntry.id) =
        [some 1, some 1] ∧ ¬ Proportional 0 "gpt" [] twoChannels [1, 2] [] := by
  refine ⟨by decide, fun hall => ?_⟩
  have hcount := hall (2, 1) (by decide)
  revert hcount
  decide

end Tokilake.Gateway
