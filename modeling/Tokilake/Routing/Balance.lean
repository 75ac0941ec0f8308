import Mathlib.Algebra.Group.Int.Defs
import Tokilake.Lib.Weighted
import Tokilake.Routing.Next

/-! # Tiers and draws

A name that stands twice in a list puts its channel into a tier twice.

* `balanced_iff`: when the tiers are by priority and the draws by weight. -/

namespace Tokilake.Routing

open Lib List ChannelsChooser Weighted
open Routing.Cooldowns (int64)

variable {set : ChannelRows} {row ch : Channel} {group model : String} {priority : ℤ} {q : Query}

instance (ch : Channel) (group model : String) : Decidable (ch.Offers group model) :=
  inferInstanceAs (Decidable (_ ∧ _))

/-! ### The tiers as lists -/

def Channel.times (ch : Channel) (group model : String) : ℕ :=
  (names ch.group).count group * (names ch.models).count model

lemma ids_offer (cc : ChannelsChooser) (ch : Channel) (g m : String) :
    (cc.offer ch g m).ids group model priority = cc.ids group model priority ++
      if (g, m) = (group, model) ∧ ch.priority = priority then [ch.id] else [] := by
  unfold ids
  by_cases hkey : (g, m) = (group, model)
  · cases hkey
    rw [offer, AList.lookup_insert, Option.getD_some]
    by_cases hp : ch.priority = priority
    · subst hp
      simp
    · rw [AList.lookup_insert_ne (Ne.symm hp)]
      simp [hp]
  · rw [offer, AList.lookup_insert_ne (Ne.symm hkey)]
    simp [hkey]

lemma ids_foldl (offers : List (Channel × String × String)) :
    ∀ cc : ChannelsChooser, (offers.foldl (fun cc o => cc.offer o.1 o.2.1 o.2.2) cc).ids group model
      priority = cc.ids group model priority ++
        offers.flatMap fun o => if o.2 = (group, model) ∧
          o.1.priority = priority then [o.1.id] else []
    := by
  induction offers with
  | nil => simp
  | cons o offers ih =>
    intro cc
    rw [foldl_cons, ih, ids_offer, flatMap_cons, append_assoc]

lemma flatMap_offered (ch : Channel) : (ch.offered.flatMap fun o =>
      if o.2 = (group, model) ∧ o.1.priority = priority then [o.1.id] else []) =
        if ch.priority = priority then replicate (ch.times group model) ch.id else [] := by
  have hmodels : ∀ (g : String) (ms : List String), (ms.flatMap fun m =>
      if (g, m) = (group, model) ∧ ch.priority = priority then [ch.id] else []) =
        if ch.priority = priority then
          replicate (if g = group then ms.count model else 0) ch.id else [] := by
    intro g ms
    induction ms with
    | nil => simp
    | cons m ms ih =>
      rw [flatMap_cons, ih]
      by_cases hp : ch.priority = priority <;> by_cases hg : g =
        group <;> by_cases hm : m = model <;>
        simp [hp, hg, hm, replicate_succ]
  unfold Channel.offered Channel.times
  rw [flatMap_assoc]
  generalize names ch.group = groups
  induction groups with
  | nil => simp
  | cons g groups ih =>
    rw [flatMap_cons, ih, flatMap_map, hmodels]
    by_cases hp : ch.priority = priority <;> by_cases hg : g = group <;>
      simp [hp, hg, Nat.succ_mul, Nat.add_comm]

@[simp] lemma withWeight_priority (row : Channel) : row.withWeight.priority = row.priority := by
  unfold Channel.withWeight
  split_ifs <;> rfl

@[simp] lemma withWeight_times (row : Channel) :
    row.withWeight.times group model = row.times group model := by
  unfold Channel.withWeight
  split_ifs <;> rfl

lemma ids_rows (rows : List Channel) : ∀ cc : ChannelsChooser,
    (rows.foldl addChannel cc).ids group model priority =
      cc.ids group model priority ++ rows.flatMap fun row =>
        if row.priority = priority then replicate (row.times group model) row.id else [] := by
  induction rows with
  | nil => simp
  | cons row rows ih =>
    intro cc
    rw [foldl_cons, ih, addChannel_eq, ids_foldl, flatMap_offered, flatMap_cons,
      withWeight_priority, withWeight_times, withWeight_id, append_assoc]
    rfl

lemma ids_load (set : ChannelRows) (group model : String) (priority : ℤ) :
    (load set).ids group model priority = set.rows.flatMap fun row =>
      if row.priority = priority then replicate (row.times group model) row.id else [] := by
  rw [load, ids_rows]
  rfl

/-! ### Names that stand in a list once -/

def Channel.Plain (ch : Channel) : Prop :=
  (names ch.group).Nodup ∧ (names ch.models).Nodup ∨ names ch.group = [] ∨ names ch.models = []

lemma times_pos_iff : 0 < ch.times group model ↔ ch.Offers group model := by
  simp only [Channel.times, Channel.Offers, Nat.pos_iff_ne_zero, ne_eq, Nat.mul_eq_zero, not_or,
    count_eq_zero, not_not]

lemma plain_iff : ch.Plain ↔ ∀ group model, ch.times group model ≤ 1 := by
  constructor
  · rintro (⟨hgroups, hmodels⟩ | hnil | hnil) group model
    · have hg := nodup_iff_count_le_one.mp hgroups group
      have hm := nodup_iff_count_le_one.mp hmodels model
      exact Nat.mul_le_mul hg hm
    · simp [Channel.times, hnil]
    · simp [Channel.times, hnil]
  · intro h
    by_cases hgroups : names ch.group = []
    · exact Or.inr (Or.inl hgroups)
    by_cases hmodels : names ch.models = []
    · exact Or.inr (Or.inr hmodels)
    obtain ⟨g, hg⟩ := exists_mem_of_ne_nil _ hgroups
    obtain ⟨m, hm⟩ := exists_mem_of_ne_nil _ hmodels
    have hg := count_pos_iff.mpr hg
    have hm := count_pos_iff.mpr hm
    refine Or.inl ⟨nodup_iff_count_le_one.mpr fun group => ?_,
      nodup_iff_count_le_one.mpr fun model => ?_⟩
    · exact (Nat.le_mul_of_pos_right _ hm).trans (h group m)
    · exact (Nat.le_mul_of_pos_left _ hg).trans (h g model)

def offering (set : ChannelRows) (group model : String) (priority : ℤ) : List Channel :=
  set.rows.filter fun row => row.priority = priority ∧ row.Offers group model

lemma ids_of_plain (h : ∀ row ∈ set.rows, row.Plain) :
    (load set).ids group model priority = (offering set group model priority).map Channel.id := by
  rw [ids_load, offering]
  generalize set.rows = rows at h
  induction rows with
  | nil => rfl
  | cons row rows ih =>
    have hrow := plain_iff.mp (h row mem_cons_self) group model
    have hoffers := @times_pos_iff row group model
    rw [flatMap_cons, ih fun r hr => h r (mem_cons_of_mem _ hr)]
    by_cases hp : row.priority = priority
    · by_cases ho : row.Offers group model
      · have hone : row.times group model = 1 := by
          have := hoffers.mpr ho
          omega
        simp [hp, ho, hone]
      · have hzero : row.times group model = 0 := by
          by_contra hne
          exact ho (hoffers.mp (Nat.pos_of_ne_zero hne))
        simp [hp, ho, hzero]
    · simp [hp]

/-! ### The draw -/

def weighted (valid : List ChannelChoice) : List (Channel × ℕ) :=
  valid.map fun choice => (choice.channel, choice.channel.weight.toNat)

variable {valid : List ChannelChoice}

lemma int64_of_lt {n : ℤ} (hlow : -2 ^ 63 ≤ n) (hhigh : n < 2 ^ 63) : int64 n = n :=
  Int.bmod_eq_of_le (by omega) (by omega)

lemma weight_of_lt {choice : ChannelChoice} (h : choice.channel.weight.toNat < 2 ^ 63) :
    choice.weight = choice.channel.weight.toNat :=
  int64_of_lt (by omega) (by omega)

lemma totalWeight_eq_total (valid : List ChannelChoice) :
    totalWeight valid = int64 (total (weighted valid)) := by
  have hsum : ∀ (valid : List ChannelChoice) (k : ℤ),
      int64 (k + sumWeights valid) = int64 (k + total (weighted valid)) := by
    intro valid
    induction valid with
    | nil => exact fun k => rfl
    | cons choice valid ih =>
      intro k
      have hstep : int64 (k + (choice.weight + sumWeights valid)) =
          int64 (k + sumWeights valid + choice.channel.weight.toNat) := by
        rw [Int.add_comm choice.weight, ← Int.add_assoc, ChannelChoice.weight]
        generalize k + sumWeights valid = rest
        exact Int.add_bmod_bmod
      have hcast : k + (total (weighted (choice :: valid)) : ℤ) =
          k + choice.channel.weight.toNat + total (weighted valid) := by
        simp only [weighted, map_cons, total, Int.natCast_add]
        omega
      rw [sumWeights, hstep, hcast, ← ih]
      congr 1
      omega
  have h := hsum valid 0
  rwa [Int.zero_add, Int.zero_add, ← totalWeight_eq] at h

section

variable (hfits : total (weighted valid) < 2 ^ 63)
include hfits

lemma totalWeight_of_fits : totalWeight valid = total (weighted valid) := by
  rw [totalWeight_eq_total]
  exact int64_of_lt (by omega) (by omega)

lemma pick_eq_select {n : ℕ} (hn : n < 2 ^ 63) : pick valid n = select (weighted valid) n := by
  induction valid generalizing n with
  | nil => rfl
  | cons choice valid ih =>
    simp only [weighted, map_cons, total] at hfits ih ⊢
    have hweight := @weight_of_lt choice (by omega)
    have hleft : int64 (n - choice.weight) = n - choice.channel.weight.toNat := by
      rw [hweight]
      exact int64_of_lt (by omega) (by omega)
    rw [pick, select, hleft]
    by_cases hlt : n < choice.channel.weight.toNat
    · rw [if_pos (by omega), if_pos hlt]
    · have hcast : (n : ℤ) - choice.channel.weight.toNat = ↑(n - choice.channel.weight.toNat) := by
        omega
      rw [if_neg (by omega), if_neg hlt, hcast, ih (by omega) (by omega)]

lemma choose_eq_channel_iff
    (hlength : 2 ≤ valid.length) {draw : ℕ} (hdraw : draw < total (weighted valid)) :
    choose draw valid = some (.channel ch) ↔ select (weighted valid) draw = some ch := by
  match valid with
  | [] | [_] => simp at hlength
  | first :: second :: rest =>
    have htotal := totalWeight_of_fits hfits
    have hmod : (draw : ℤ) % totalWeight (first :: second :: rest) = draw := by
      exact Int.emod_eq_of_lt (by omega) (by omega)
    simp only [choose]
    rw [if_neg (by omega), hmod, pick_eq_select hfits (by omega)]
    simp

lemma count_choose (hlength : 2 ≤ valid.length)
    (hnodup : (valid.map ChannelChoice.channel).Nodup) {choice : ChannelChoice}
    (hchoice : choice ∈ valid) :
    Nat.count (fun draw => choose draw valid = some (.channel choice.channel))
      (totalWeight valid).toNat = choice.channel.weight.toNat := by
  have htotal : (totalWeight valid).toNat = total (weighted valid) := by
    rw [totalWeight_of_fits hfits]
    rfl
  have hsame : Nat.count (fun draw => choose draw valid = some (.channel choice.channel))
      (total (weighted valid)) =
        Nat.count (fun draw => select (weighted valid) draw = some choice.channel)
          (total (weighted valid)) :=
    le_antisymm
      (Nat.count_mono_left fun _ hdraw h => (choose_eq_channel_iff hfits hlength hdraw).mp h)
      (Nat.count_mono_left fun _ hdraw h => (choose_eq_channel_iff hfits hlength hdraw).mpr h)
  have hfst : (weighted valid).map Prod.fst = valid.map ChannelChoice.channel := by
    rw [weighted, map_map]
    rfl
  have hmem : (choice.channel, choice.channel.weight.toNat) ∈ weighted valid :=
    mem_map_of_mem hchoice
  rw [htotal, hsame, count_select]
  exact share_of_mem (hfst ▸ hnodup) hmem

end

def Result.channel? : Option Result → Option Channel
  | some (.channel ch) => some ch
  | _ => none

lemma channel?_eq_some {r : Option Result} : Result.channel? r = some ch ↔
    r = some (.channel ch) := by
  match r with
  | none => simp [Result.channel?]
  | some (.channel c) => simp [Result.channel?]
  | some (.error text) => simp [Result.channel?]
  | some .panic => simp [Result.channel?]

lemma fits_of_count (hnodup : (valid.map ChannelChoice.channel).Nodup)
    (hcount : ∀ choice ∈ valid,
      Nat.count (fun draw => choose draw valid = some (.channel choice.channel))
        (totalWeight valid).toNat = choice.channel.weight.toNat) :
    total (weighted valid) < 2 ^ 63 := by
  have hle := total_count_le (fun draw => Result.channel? (choose draw valid))
    (totalWeight valid).toNat hnodup
  have hsame : ((valid.map ChannelChoice.channel).map fun ch =>
      (ch, Nat.count (fun draw => Result.channel? (choose draw valid) = some ch)
        (totalWeight valid).toNat)) = weighted valid := by
    rw [map_map, weighted]
    refine map_congr_left fun choice hchoice => ?_
    simp only [Function.comp_apply, channel?_eq_some, hcount choice hchoice]
  have hbound : totalWeight valid < 2 ^ 63 := by
    rw [totalWeight_eq]
    exact Int.bmod_lt (by decide)
  rw [hsame] at hle
  omega

/-! ### The channels of a tier -/

lemma getChannel_loaded {changes : List (ℤ × Bool)} (hrow : row ∈ set.rows) :
    (loaded set changes).getChannel row.id = some row.withWeight := by
  unfold loaded
  induction changes using reverseRecOn with
  | nil => exact getChannel_load.mpr ⟨row, hrow, rfl, rfl⟩
  | append_singleton changes change ih =>
    rw [foldl_append, foldl_cons, foldl_nil, getChannel_changeStatus]
    exact ih

lemma validChannels_sublist {cc : ChannelsChooser} {rows : List Channel}
    (hrows : ∀ row ∈ rows, cc.getChannel row.id = some row.withWeight) :
    ((cc.validChannels q (rows.map Channel.id)).map ChannelChoice.channel).Sublist
      (rows.map Channel.withWeight) := by
  unfold validChannels
  induction rows with
  | nil => exact List.Sublist.slnil
  | cons row rows ih =>
    have hrest := ih fun r hr => hrows r (mem_cons_of_mem _ hr)
    rw [map_cons, map_cons, filterMap_cons]
    split
    · exact hrest.cons _
    rename_i choice hchoice
    have hrow := hrows row mem_cons_self
    rw [getChannel, (Option.filter_eq_some_iff.mp hchoice).1, Option.map_some,
      Option.some.injEq] at hrow
    rw [map_cons, hrow]
    exact hrest.cons_cons _

lemma weight_pos (row : Channel) : 0 < row.withWeight.weight.toNat := by
  have hne : row.withWeight.weight ≠ 0 := by
    unfold Channel.withWeight
    split_ifs with h
    · show defaultChannelWeight ≠ 0
      decide
    · exact h
  rw [Nat.pos_iff_ne_zero]
  intro h
  exact hne (UInt64.toNat_inj.mp h)

lemma lookup_load {id : ℤ} {choice : ChannelChoice}
    (h : (load set).channels.lookup id = some choice) : choice.disable = false := by
  have hrows : ∀ (rows : List Channel) (cc : ChannelsChooser),
      (∀ id choice, cc.channels.lookup id = some choice → choice.disable = false) →
      ∀ id choice, (rows.foldl addChannel cc).channels.lookup id = some choice →
        choice.disable = false := by
    intro rows
    induction rows with
    | nil => exact fun _ h => h
    | cons row rows ih =>
      intro cc hcc
      refine ih (cc.addChannel row) fun id choice hlook => ?_
      rw [addChannel_eq, channels_foldl_offer] at hlook
      by_cases hid : id = row.withWeight.id
      · rw [hid, AList.lookup_insert, Option.some.injEq] at hlook
        rw [← hlook]
      · rw [AList.lookup_insert_ne hid] at hlook
        exact hcc id choice hlook
  exact hrows set.rows {} (by simp) id choice h

lemma validChannels_load {rows : List Channel} (hrows : ∀ row ∈ rows, row ∈ set.rows) :
    ((load set).validChannels ⟨group, model, [], fun _ => none, 0⟩ (rows.map Channel.id)).map
      ChannelChoice.channel = rows.map Channel.withWeight := by
  unfold validChannels
  induction rows with
  | nil => rfl
  | cons row rows ih =>
    have hrow : (load set).channels.lookup row.id = some ⟨row.withWeight, false⟩ := by
      have hget := getChannel_load.mpr ⟨row, hrows row mem_cons_self, rfl, rfl⟩
      obtain ⟨choice, hchoice, heq⟩ := Option.map_eq_some_iff.mp hget
      have hdisable := lookup_load hchoice
      rw [hchoice, ← heq, ← hdisable]
    rw [map_cons, filterMap_cons, hrow]
    exact congrArg (row.withWeight :: ·) (ih fun r hr => hrows r (mem_cons_of_mem _ hr))

/-! ### Tiers and draws -/

def Tiered (set : ChannelRows) (group model : String) (tiers : List (List ℤ)) : Prop :=
  ∃ priorities : List ℤ, priorities.Pairwise (· > ·) ∧
    List.Forall₂ (fun priority tier => tier.Nodup ∧ ∀ id, id ∈ tier ↔
      ∃ row ∈ set.rows, row.id = id ∧ row.priority = priority ∧ row.Offers group model)
      priorities tiers ∧ ∀ row ∈ set.rows, row.Offers group model → row.priority ∈ priorities

def Several (valid : List ChannelChoice) : Prop :=
  ∃ a ∈ valid, ∃ b ∈ valid, a.channel.id ≠ b.channel.id

/-- Each channel is returned for as many numbers as its weight; a zero has been replaced. -/
structure DrawnByWeight (cc : ChannelsChooser) (q : Query) (tier : List ℤ) : Prop where
  positive : 0 < totalWeight (cc.validChannels q tier)
  count : ∀ choice ∈ cc.validChannels q tier,
    Nat.count (fun draw => cc.balancer q draw tier = some (.channel choice.channel))
      (totalWeight (cc.validChannels q tier)).toNat = choice.channel.weight.toNat

/-- The tables that `Load` builds, and the draws from them, whatever has happened since. -/
structure Balanced (set : ChannelRows) : Prop where
  tiers : ∀ group model, Tiered set group model (((load set).rule group model).getD [])
  draws : ∀ group model, ∀ tier ∈ ((load set).rule group model).getD [], ∀ changes q,
    Several ((loaded set changes).validChannels q tier) → DrawnByWeight (loaded set changes) q tier

def weights (rows : List Channel) : List (Channel × ℕ) :=
  (rows.map Channel.withWeight).map fun ch => (ch, ch.weight.toNat)

def WeightsFit (set : ChannelRows) : Prop :=
  ∀ group model priority, (offering set group model priority).length ≤ 1 ∨
    total (weights (offering set group model priority)) < 2 ^ 63

lemma weighted_eq (valid : List ChannelChoice) :
    weighted valid = (valid.map ChannelChoice.channel).map fun ch => (ch, ch.weight.toNat) := by
  rw [weighted, map_map]
  rfl

lemma two_le_of_several (h : Several valid) : 2 ≤ valid.length := by
  obtain ⟨a, ha, b, hb, hne⟩ := h
  match valid with
  | [] => cases ha
  | [c] =>
    rw [mem_singleton.mp ha, mem_singleton.mp hb] at hne
    exact absurd rfl hne
  | _ :: _ :: _ => simp

lemma several_of_two_le (hnodup : ((valid.map ChannelChoice.channel).map Channel.id).Nodup)
    (h : 2 ≤ valid.length) : Several valid := by
  match valid with
  | a :: b :: rest =>
    refine ⟨a, mem_cons_self, b, mem_cons_of_mem _ mem_cons_self, fun heq => ?_⟩
    rw [map_cons, map_cons, map_cons, heq] at hnodup
    exact (nodup_cons.mp hnodup).1 mem_cons_self

lemma exists_tiers (set : ChannelRows) (group model : String) :
    ∃ priorities : List ℤ, priorities.Pairwise (· > ·) ∧
      ((load set).rule group model).getD [] = priorities.map ((load set).ids group model) ∧
      ∀ row ∈ set.rows, row.Offers group model → row.priority ∈ priorities := by
  obtain ⟨priorities, hsorted, htiers, hall⟩ := exists_priorities (load set) group model
  refine ⟨priorities, hsorted, htiers, fun row hrow hoffers => hall _ ?_⟩
  have hpos := times_pos_iff.mpr hoffers
  have hmem : row.id ∈ (load set).ids group model row.priority := by
    rw [ids_load]
    refine mem_flatMap.mpr ⟨row, hrow, ?_⟩
    rw [if_pos rfl]
    exact mem_replicate.mpr ⟨by omega, rfl⟩
  exact ne_nil_of_mem hmem

lemma plain_of_tiered
    (h : ∀ group model, Tiered set group model (((load set).rule group model).getD []))
    (hrow : row ∈ set.rows) : row.Plain := by
  refine plain_iff.mpr fun group model => ?_
  by_contra hmore
  obtain ⟨priorities, -, htiers, hall⟩ := exists_tiers set group model
  obtain ⟨_, -, hforall, -⟩ := h group model
  have hmem : (load set).ids group model row.priority ∈ ((load set).rule group model).getD [] := by
    rw [htiers]
    exact mem_map_of_mem (hall row hrow (times_pos_iff.mp (by omega)))
  have hnodup : ((load set).ids group model row.priority).Nodup := by
    obtain ⟨i, hi, heq⟩ := mem_iff_getElem.mp hmem
    have hlen := hforall.length_eq
    have htier := (forall₂_iff_get.mp hforall).2 i (by omega) hi
    rw [get_eq_getElem, get_eq_getElem, heq] at htier
    exact htier.1
  -- the channel stands in its tier as often as it is offered
  have hsub : (replicate (row.times group model) row.id).Sublist
      ((load set).ids group model row.priority) := by
    obtain ⟨before, after, hsplit⟩ := append_of_mem hrow
    rw [ids_load, hsplit, flatMap_append, flatMap_cons, if_pos rfl]
    exact (sublist_append_left _ _).trans (sublist_append_right _ _)
  have hone := nodup_replicate.mp (hnodup.sublist hsub)
  omega

lemma tiered_of_plain (hplain : ∀ row ∈ set.rows, row.Plain) (group model : String) :
    Tiered set group model (((load set).rule group model).getD []) := by
  obtain ⟨priorities, hsorted, htiers, hall⟩ := exists_tiers set group model
  refine ⟨priorities, hsorted, ?_, hall⟩
  rw [htiers, forall₂_map_right_iff, forall₂_same]
  intro priority _
  rw [ids_of_plain hplain]
  refine ⟨?_, fun id => ?_⟩
  · exact set.nodup.sublist (filter_sublist.map Channel.id)
  · simp only [offering, mem_map, mem_filter, decide_eq_true_eq]
    constructor
    · rintro ⟨row, ⟨hrow, hp, hoffers⟩, rfl⟩
      exact ⟨row, hrow, rfl, hp, hoffers⟩
    · rintro ⟨row, hrow, rfl, hp, hoffers⟩
      exact ⟨row, ⟨hrow, hp, hoffers⟩, rfl⟩

lemma exists_priority_of_mem {tier : List ℤ} (hplain : ∀ row ∈ set.rows, row.Plain)
    (h : tier ∈ ((load set).rule group model).getD []) :
    ∃ priority, tier = (offering set group model priority).map Channel.id := by
  obtain ⟨priorities, -, htiers, -⟩ := exists_tiers set group model
  rw [htiers] at h
  obtain ⟨priority, -, rfl⟩ := mem_map.mp h
  exact ⟨priority, ids_of_plain hplain⟩

lemma nodup_ids (set : ChannelRows) (group model : String) (priority : ℤ) :
    (((offering set group model priority).map Channel.withWeight).map Channel.id).Nodup := by
  have hcomp : Channel.id ∘ Channel.withWeight = Channel.id := funext withWeight_id
  rw [map_map, hcomp]
  exact set.nodup.sublist (filter_sublist.map Channel.id)

lemma drawnByWeight_of_fits (hfit : WeightsFit set) (changes : List (ℤ × Bool)) (q : Query)
    (hseveral : Several ((loaded set changes).validChannels q
      ((offering set group model priority).map Channel.id))) :
    DrawnByWeight (loaded set changes) q ((offering set group model priority).map Channel.id) := by
  have hrows : ∀ row ∈ offering set group model priority,
      (loaded set changes).getChannel row.id = some row.withWeight :=
    fun row hrow => getChannel_loaded (mem_of_mem_filter hrow)
  have hsub := validChannels_sublist (q := q) hrows
  have hlength := two_le_of_several hseveral
  have hnodup := ((nodup_ids set group model priority).of_map _).sublist hsub
  have hfits : total (weighted ((loaded set changes).validChannels q
      ((offering set group model priority).map Channel.id))) < 2 ^ 63 := by
    have hle := total_le_of_sublist (hsub.map fun ch => (ch, ch.weight.toNat))
    have hlen := hsub.length_le
    rw [length_map, length_map] at hlen
    rw [weighted_eq]
    rcases hfit group model priority with hfew | hfit
    · omega
    · exact lt_of_le_of_lt hle hfit
  refine ⟨?_, fun choice hchoice => count_choose hfits hlength hnodup hchoice⟩
  -- the weight of the first channel is part of the total
  obtain ⟨a, ha, -⟩ := hseveral
  have hpos : 0 < a.channel.weight.toNat := by
    obtain ⟨row, -, heq⟩ := mem_map.mp (hsub.subset (mem_map_of_mem ha))
    rw [← heq]
    exact weight_pos row
  have hmem : (a.channel, a.channel.weight.toNat) ∈ weighted ((loaded set changes).validChannels q
      ((offering set group model priority).map Channel.id)) := mem_map_of_mem ha
  have hle := total_le_of_sublist (singleton_sublist.mpr hmem)
  simp only [total] at hle
  rw [totalWeight_of_fits hfits]
  omega

lemma fits_of_draws (h : Balanced set) (hplain : ∀ row ∈ set.rows, row.Plain) : WeightsFit set := by
  intro group model priority
  by_cases hfew : (offering set group model priority).length ≤ 1
  · exact Or.inl hfew
  right
  have hrows : ∀ row ∈ offering set group model priority, row ∈ set.rows :=
    fun row hrow => mem_of_mem_filter hrow
  let q : Query := ⟨group, model, [], fun _ => none, 0⟩
  let tier := (offering set group model priority).map Channel.id
  have hvalid : ((load set).validChannels q tier).map ChannelChoice.channel =
      (offering set group model priority).map Channel.withWeight := validChannels_load hrows
  have hseveral : Several ((load set).validChannels q tier) := by
    refine several_of_two_le ?_ ?_
    · rw [hvalid]
      exact nodup_ids set group model priority
    · have hlength := congrArg length hvalid
      rw [length_map, length_map] at hlength
      omega
  have htier : tier ∈ ((load set).rule group model).getD [] := by
    obtain ⟨row, hrow⟩ := exists_mem_of_length_pos
      (show 0 < (offering set group model priority).length by omega)
    have hoffers := of_decide_eq_true (mem_filter.mp hrow).2
    obtain ⟨priorities, -, htiers, hall⟩ := exists_tiers set group model
    rw [htiers, show tier = (load set).ids group model priority from (ids_of_plain hplain).symm,
      ← hoffers.1]
    exact mem_map_of_mem (hall row (hrows row hrow) hoffers.2)
  have hdrawn := h.draws group model tier htier [] q hseveral
  have hnodup : (((load set).validChannels q tier).map ChannelChoice.channel).Nodup := by
    rw [hvalid]
    exact (nodup_ids set group model priority).of_map _
  have hfits := fits_of_count hnodup hdrawn.count
  rw [weighted_eq, hvalid] at hfits
  exact hfits

/-- **When tiers and draws are right**: no name twice, and sums of weights below `2 ^ 63`. -/
theorem balanced_iff (set : ChannelRows) :
    Balanced set ↔ (∀ row ∈ set.rows, row.Plain) ∧ WeightsFit set := by
  constructor
  · intro h
    have hplain : ∀ row ∈ set.rows, row.Plain := fun row hrow => plain_of_tiered h.tiers hrow
    exact ⟨hplain, fits_of_draws h hplain⟩
  · rintro ⟨hplain, hfit⟩
    refine ⟨tiered_of_plain hplain, fun group model tier htier changes q hseveral => ?_⟩
    obtain ⟨priority, rfl⟩ := exists_priority_of_mem hplain htier
    exact drawnByWeight_of_fits hfit changes q hseveral

def repeated : ChannelRows := ⟨[⟨1, "a", "gpt,gpt", 1, 0⟩, ⟨2, "a", "gpt", 1, 0⟩], by decide⟩

/-- The first channel is twice in the tier, and is returned for two of three numbers. -/
theorem named_twice : (load repeated).rule "a" "gpt" = some [[1, 1, 2]] ∧
      totalWeight ((load repeated).validChannels ⟨"a", "gpt", [], fun _ => none, 0⟩ [1, 1, 2]) = 3 ∧
      Nat.count (fun draw => (load repeated).balancer ⟨"a", "gpt", [], fun _ => none, 0⟩ draw
        [1, 1, 2] = some (.channel ⟨1, "a", "gpt,gpt", 1, 0⟩)) 3 = 2 ∧ ¬ Balanced repeated := by
  refine ⟨by decide, by decide, by decide, fun h => ?_⟩
  have hplain := plain_of_tiered h.tiers
    (show (⟨1, "a", "gpt,gpt", 1, 0⟩ : Channel) ∈ repeated.rows from mem_cons_self)
  have hone := plain_iff.mp hplain "a" "gpt"
  exact absurd hone (by decide)

end Tokilake.Routing
