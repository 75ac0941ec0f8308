import Tokilake.Routing.Chooser

/-! # Which channel Next returns

`Next` takes the first matching pattern of a list that all groups share, in no fixed order, and
looks up that one pattern in the group.

* `next_iff`: when it finds a channel if there is one. -/

namespace Tokilake.Routing

open Lib List ChannelsChooser
open Routing.Cooldowns (int64 isInCooldown)

variable {cc : ChannelsChooser} {q : Query} {ch : Channel} {draw : ℕ} {valid : List ChannelChoice}
  {order : List String} {entry : String}

/-! ### The draw -/

def Drawable (valid : List ChannelChoice) : Prop := valid.length = 1 ∨ 0 < totalWeight valid

def sumWeights : List ChannelChoice → ℤ
  | [] => 0
  | choice :: valid => choice.weight + sumWeights valid

lemma totalWeight_eq (valid : List ChannelChoice) :
    totalWeight valid = int64 (sumWeights valid) := by
  have hfold : ∀ (l : List ChannelChoice) (total : ℤ),
      l.foldl (fun total choice => int64 (total + choice.weight)) (int64 total) =
        int64 (total + sumWeights l) := by
    intro l
    induction l with
    | nil => simp [sumWeights]
    | cons choice l ih =>
      intro total
      have hstep : int64 (int64 total + choice.weight) = int64 (total + choice.weight) :=
        Int.bmod_add_bmod
      rw [foldl_cons, hstep, ih, sumWeights, Int.add_assoc]
  have hzero : int64 0 = 0 := Int.zero_bmod
  have h := hfold valid 0
  rw [hzero, Int.zero_add] at h
  exact h

lemma pick_eq_none {remaining : ℤ} (hpos : 0 ≤ int64 remaining)
    (h : pick valid (int64 remaining) = none) : 0 ≤ int64 (remaining - sumWeights valid) := by
  induction valid generalizing remaining with
  | nil => simpa [sumWeights] using hpos
  | cons choice valid ih =>
    have hstep : int64 (int64 remaining - choice.weight) = int64 (remaining - choice.weight) :=
      Int.bmod_sub_bmod
    rw [pick, hstep] at h
    by_cases hneg : int64 (remaining - choice.weight) < 0
    · rw [if_pos hneg] at h
      cases h
    · rw [if_neg hneg] at h
      rw [sumWeights, ← Int.sub_sub]
      exact ih (by omega) h

lemma exists_mem_of_pick {remaining : ℤ} (h : pick valid remaining = some ch) :
    ∃ choice ∈ valid, choice.channel = ch := by
  induction valid generalizing remaining with
  | nil => cases h
  | cons choice valid ih =>
    rw [pick] at h
    split_ifs at h with hneg
    · exact ⟨choice, mem_cons_self, Option.some.inj h⟩
    · obtain ⟨c, hc, heq⟩ := ih h
      exact ⟨c, mem_cons_of_mem _ hc, heq⟩

lemma pick_isSome {number : ℤ} (hnonneg : 0 ≤ number) (hlt : number < totalWeight valid) :
    ∃ choice ∈ valid, pick valid number = some choice.channel := by
  have hbound : totalWeight valid < 2 ^ 63 := by
    rw [totalWeight_eq]
    exact Int.bmod_lt (by decide)
  have hfit : int64 number = number := Int.bmod_eq_of_le (by omega) (by omega)
  cases hpick : pick valid number with
  | some c =>
    obtain ⟨choice, hmem, heq⟩ := exists_mem_of_pick hpick
    exact ⟨choice, hmem, by rw [heq]⟩
  | none =>
    rw [← hfit] at hpick
    have hleft := pick_eq_none (by omega) hpick
    have heq : int64 (number - sumWeights valid) = number - totalWeight valid := by
      have hcongr : int64 (number - int64 (sumWeights valid)) = int64 (number - sumWeights valid) :=
        Int.sub_bmod_bmod
      rw [← hcongr, ← totalWeight_eq]
      exact Int.bmod_eq_of_le (by omega) (by omega)
    omega

lemma choose_eq_none_iff : choose draw valid = none ↔ valid = [] := by
  match valid with
  | [] | [choice] => simp [choose]
  | first :: second :: rest =>
    simp only [choose, reduceCtorEq, iff_false]
    split_ifs with htotal
    · simp
    obtain ⟨c, -, hc⟩ := pick_isSome (Int.emod_nonneg draw (by omega))
      (Int.emod_lt_of_pos draw (by omega : 0 < totalWeight (first :: second :: rest)))
    rw [hc]
    simp

lemma exists_mem_of_choose (h : choose draw valid = some (.channel ch)) :
    Drawable valid ∧ ∃ choice ∈ valid, choice.channel = ch := by
  match valid with
  | [] => cases h
  | [choice] =>
    cases h
    exact ⟨.inl rfl, choice, by simp, rfl⟩
  | first :: second :: rest =>
    simp only [choose] at h
    split_ifs at h with htotal
    · cases h
    rw [Option.map_eq_some_iff] at h
    obtain ⟨c, hc, heq⟩ := h
    cases heq
    exact ⟨.inr (by omega), exists_mem_of_pick hc⟩

lemma choose_of_drawable (hne : valid ≠ []) (h : Drawable valid) :
    ∃ ch, choose draw valid = some (.channel ch) := by
  match valid with
  | [] => exact absurd rfl hne
  | [choice] => exact ⟨choice.channel, rfl⟩
  | first :: second :: rest =>
    have htotal : 0 < totalWeight (first :: second :: rest) := by
      rcases h with h | h
      · simp at h
      · exact h
    obtain ⟨c, -, hc⟩ := pick_isSome (Int.emod_nonneg draw (by omega))
      (Int.emod_lt_of_pos draw htotal)
    refine ⟨c.channel, ?_⟩
    simp only [choose]
    rw [if_neg (by omega), hc]
    rfl

lemma choose_zero {choice : ChannelChoice} (h : Drawable (choice :: valid))
    (hweight : 0 < choice.weight) :
    choose 0 (choice :: valid) = some (.channel choice.channel) := by
  match valid with
  | [] => rfl
  | second :: rest =>
    have htotal : 0 < totalWeight (choice :: second :: rest) := by
      rcases h with h | h
      · simp at h
      · exact h
    have hbound : choice.weight < 2 ^ 63 := by
      rw [ChannelChoice.weight]
      exact Int.bmod_lt (by decide)
    have hneg : int64 (0 - choice.weight) = 0 - choice.weight :=
      Int.bmod_eq_of_le (by omega) (by omega)
    simp only [choose]
    rw [if_neg (by omega), Int.natCast_zero, Int.zero_emod, pick, hneg, if_pos (by omega)]
    rfl

/-! ### The channels that are drawn from -/

/-- A channel `Next` may return: loaded, not disabled, not cooling, and not filtered out. -/
structure Eligible (cc : ChannelsChooser) (q : Query) (ch : Channel) : Prop where
  enabled : cc.channels.lookup ch.id = some ⟨ch, false⟩
  awake : isInCooldown q.cooldowns q.now ch.id q.modelName = false
  kept : ∀ filter ∈ q.filters, filter ch.id ⟨ch, false⟩ = false

lemma Eligible.has (h : Eligible cc q ch) : cc.Has ch := by
  rw [ChannelsChooser.Has, getChannel, h.enabled]
  rfl

lemma mem_validChannels (hcc : Consistent cc) {channelIds : List ℤ} {choice : ChannelChoice} :
    choice ∈ cc.validChannels q channelIds ↔
      choice.channel.id ∈ channelIds ∧ choice.disable = false ∧ Eligible cc q choice.channel := by
  obtain ⟨ch, disable⟩ := choice
  simp only [validChannels, mem_filterMap, Option.filter_eq_some_iff,
    Bool.and_eq_true, Bool.not_eq_true', any_eq_false]
  constructor
  · rintro ⟨id, hid, hlook, ⟨hdisable, hawake⟩, hkept⟩
    have hkey : ch.id = id := hcc.keyed id ch (by rw [getChannel, hlook]; rfl)
    subst hkey
    subst hdisable
    exact ⟨hid, rfl, hlook, hawake, fun filter hfilter => by simpa using hkept filter hfilter⟩
  · rintro ⟨hid, rfl, helig⟩
    refine ⟨ch.id, hid, helig.enabled, ⟨rfl, helig.awake⟩, fun filter hfilter => ?_⟩
    simpa using helig.kept filter hfilter

def front (cc : ChannelsChooser) (q : Query) (entry : String) : List ChannelChoice :=
  ((((cc.rule q.group entry).getD []).map (cc.validChannels q)).find? (· ≠ [])).getD []

lemma findSome_balancer (cc : ChannelsChooser) (q : Query) (draw : ℕ) (tiers : List (List ℤ)) :
    tiers.findSome? (cc.balancer q draw) =
      choose draw (((tiers.map (cc.validChannels q)).find? (· ≠ [])).getD []) := by
  induction tiers with
  | nil => rfl
  | cons tier tiers ih =>
    rw [findSome?_cons, map_cons, balancer]
    by_cases hnone : cc.validChannels q tier = []
    · rw [find?_cons_of_neg (by simp [hnone]), ← ih, hnone]
      rfl
    rw [find?_cons_of_pos (by simpa using hnone), Option.getD_some]
    cases hchoose : choose draw (cc.validChannels q tier) with
    | some r => rfl
    | none => exact absurd (choose_eq_none_iff.mp hchoose) hnone

lemma exists_priorities (cc : ChannelsChooser) (group entry : String) :
    ∃ priorities : List ℤ, priorities.Pairwise (· > ·) ∧
      (cc.rule group entry).getD [] = priorities.map (cc.ids group entry) ∧
      ∀ p, cc.ids group entry p ≠ [] → p ∈ priorities := by
  unfold rule ids
  cases hlook : cc.channelGroups.lookup (group, entry) with
  | none => exact ⟨[], by simp⟩
  | some tiers =>
    have hsorted : (tiers.keys.insertionSort (· ≥ ·)).Pairwise (· ≥ ·) := pairwise_insertionSort _ _
    have hnodup : (tiers.keys.insertionSort (· ≥ ·)).Nodup :=
      (perm_insertionSort _ _).nodup_iff.mpr tiers.nodupKeys
    refine ⟨tiers.keys.insertionSort (· ≥ ·),
      (hsorted.and hnodup).imp fun ⟨hge, hne⟩ => lt_of_le_of_ne hge hne.symm, rfl, fun p hp => ?_⟩
    rw [mem_insertionSort, ← AList.mem_keys, ← AList.lookup_isSome]
    cases hp' : tiers.lookup p with
    | some ids => rfl
    | none =>
      rw [Option.getD_some, hp'] at hp
      exact absurd rfl hp

lemma front_spec (hcc : Consistent cc) {choice : ChannelChoice} (h : choice ∈ front cc q entry) :
    front cc q entry = cc.validChannels q (cc.ids q.group entry choice.channel.priority) ∧
      Eligible cc q choice.channel ∧ choice.channel.Offers q.group entry ∧
      ∀ other, Eligible cc q other → other.Offers q.group entry →
        other.priority ≤ choice.channel.priority := by
  obtain ⟨priorities, hsorted, htiers, hall⟩ := exists_priorities cc q.group entry
  unfold front at h ⊢
  rw [htiers, map_map] at h ⊢
  cases hfind : (priorities.map (cc.validChannels q ∘ cc.ids q.group entry)).find? (· ≠ []) with
  | none =>
    rw [hfind] at h
    cases h
  | some valid =>
    rw [hfind] at h
    obtain ⟨-, before, after, happ, hempty⟩ := find?_eq_some_iff_append.mp hfind
    obtain ⟨higher, rest, rfl, hhigher, hrest⟩ := map_eq_append_iff.mp happ
    obtain ⟨p, lower, rfl, rfl, -⟩ := map_eq_cons_iff.mp hrest
    obtain ⟨hid, -, helig⟩ := (mem_validChannels hcc).mp h
    obtain ⟨owner, howner, hoffers, hprio, hsame⟩ := (hcc.tier _ _ _ _).mp hid
    have heq : owner = choice.channel := by
      have hhas := helig.has
      rw [ChannelsChooser.Has, ← hsame, howner] at hhas
      exact Option.some.inj hhas
    subst heq
    refine ⟨by rw [hprio]; rfl, helig, hoffers, fun other hother hoffer => ?_⟩
    have hin := (hcc.tier _ _ _ _).mpr ⟨other, hother.has, hoffer, rfl, rfl⟩
    have hmem := hall other.priority (ne_nil_of_mem hin)
    rw [hprio]
    rcases mem_append.mp hmem with hbefore | hafter
    · -- a tier that comes before has no eligible channel
      have hnone := hempty (cc.validChannels q (cc.ids q.group entry other.priority))
        (hhigher ▸ mem_map_of_mem hbefore)
      have hvalid : (⟨other, false⟩ : ChannelChoice) ∈
          cc.validChannels q (cc.ids q.group entry other.priority) :=
        (mem_validChannels hcc).mpr ⟨hin, rfl, hother⟩
      simp [ne_nil_of_mem hvalid] at hnone
    · rcases mem_cons.mp hafter with heq | hlower
      · exact heq.le
      · exact ((pairwise_cons.mp (pairwise_append.mp hsorted).2.1).1 _ hlower).le

lemma front_ne_nil (hcc : Consistent cc) (helig : Eligible cc q ch)
    (hoffers : ch.Offers q.group entry) : front cc q entry ≠ [] := by
  obtain ⟨priorities, -, htiers, hall⟩ := exists_priorities cc q.group entry
  have hin := (hcc.tier _ _ _ _).mpr ⟨ch, helig.has, hoffers, rfl, rfl⟩
  have hvalid : (⟨ch, false⟩ : ChannelChoice) ∈
      cc.validChannels q (cc.ids q.group entry ch.priority) :=
    (mem_validChannels hcc).mpr ⟨hin, rfl, helig⟩
  unfold front
  rw [htiers, map_map]
  cases hfind : (priorities.map (cc.validChannels q ∘ cc.ids q.group entry)).find? (· ≠ []) with
  | none =>
    have hno := find?_eq_none.mp hfind _ (mem_map_of_mem (hall _ (ne_nil_of_mem hin)))
    simp [ne_nil_of_mem hvalid] at hno
  | some valid => simpa using find?_some hfind

/-! ### The entry that is used -/

def entryUsed (cc : ChannelsChooser) (order : List String) (q : Query) : String :=
  if (cc.rule q.group q.modelName).isSome then q.modelName
  else getModelsWithMatch order q.modelName

lemma rule_eq_none_of_not_hasGroup (h : cc.hasGroup q.group = false) (model : String) :
    cc.rule q.group model = none := by
  have hnone : cc.channelGroups.lookup (q.group, model) = none := by
    rw [AList.lookup_eq_none, AList.mem_keys]
    intro hmem
    rw [hasGroup, any_eq_false] at h
    exact h _ hmem (by simp)
  rw [rule, hnone]
  rfl

lemma next_eq_channel_iff : cc.next order draw q = .channel ch ↔
    choose draw (front cc q (entryUsed cc order q)) = some (.channel ch) := by
  unfold ChannelsChooser.next
  by_cases hgroup : cc.hasGroup q.group = true
  · rw [if_neg (by simp [hgroup])]
    have hused : (cc.rule q.group q.modelName).or
        (cc.rule q.group (getModelsWithMatch order q.modelName)) =
          cc.rule q.group (entryUsed cc order q) := by
      unfold entryUsed
      cases hexact : cc.rule q.group q.modelName with
      | some tiers => simp [hexact]
      | none => simp
    rw [hused, front]
    cases hrule : cc.rule q.group (entryUsed cc order q) with
    | none => simp [choose]
    | some tiers =>
      rw [Option.getD_some, ← findSome_balancer]
      cases tiers with
      | nil => simp
      | cons tier tiers =>
        cases hfind : (tier :: tiers).findSome? (cc.balancer q draw) <;> simp [hfind]
  · have hnone := rule_eq_none_of_not_hasGroup (Bool.eq_false_iff.mpr hgroup)
    rw [if_pos (by simpa using hgroup), front, hnone]
    simp [choose]

def Available (cc : ChannelsChooser) (q : Query) (entry : String) : Prop :=
  front cc q entry ≠ [] ∧ Drawable (front cc q entry)

lemma exists_next_iff : (∃ ch, cc.next order draw q = .channel ch) ↔
    Available cc q (entryUsed cc order q) := by
  simp only [next_eq_channel_iff]
  constructor
  · rintro ⟨ch, h⟩
    obtain ⟨hdraw, c, hc, -⟩ := exists_mem_of_choose h
    exact ⟨ne_nil_of_mem hc, hdraw⟩
  · rintro ⟨hne, hdraw⟩
    exact choose_of_drawable hne hdraw

/-! ### What Next is for -/

variable (cc)

def HasEntry (group model : String) : Prop := ∃ ch, cc.Has ch ∧ ch.Offers group model

def Serves (q : Query) (entry : String) : Prop :=
  (HasEntry cc q.group q.modelName → entry = q.modelName) ∧ (¬ HasEntry cc q.group q.modelName →
    isPattern entry = true ∧ matchesPattern q.modelName entry = true)

def Served (q : Query) : Prop :=
  ∃ entry ch, Serves cc q entry ∧ ch.Offers q.group entry ∧ Eligible cc q ch

/-- `Next` returns an eligible channel of highest priority, if there is one to return. -/
structure Correct (cc : ChannelsChooser) (q : Query) (order : List String) (draw : ℕ) : Prop where
  complete : (∃ ch, cc.next order draw q = .channel ch) ↔ Served cc q
  best : ∀ ch, cc.next order draw q = .channel ch →
    Serves cc q (entryUsed cc order q) ∧ ch.Offers q.group (entryUsed cc order q) ∧
      Eligible cc q ch ∧
      ∀ other, Eligible cc q other → other.Offers q.group (entryUsed cc order q) →
        other.priority ≤ ch.priority

def Candidate (q : Query) (entry : String) : Prop :=
  (HasEntry cc q.group q.modelName → entry = q.modelName) ∧ (¬ HasEntry cc q.group q.modelName →
    entry ∈ cc.newMatch ∧ matchesPattern q.modelName entry = true)

variable {cc}

lemma isSome_rule_iff (hcc : Consistent cc) {group model : String} :
    (cc.rule group model).isSome ↔ HasEntry cc group model := by
  rw [rule, Option.isSome_map, hcc.entry]
  rfl

lemma entryUsed_cases (hcc : Consistent cc) (horder : order.Perm cc.newMatch) :
    Candidate cc q (entryUsed cc order q) ∨
      (¬ HasEntry cc q.group q.modelName ∧ entryUsed cc order q = "" ∧
        ∀ pattern ∈ cc.newMatch, matchesPattern q.modelName pattern = false) := by
  unfold entryUsed
  by_cases hexact : HasEntry cc q.group q.modelName
  · rw [if_pos ((isSome_rule_iff hcc).mpr hexact)]
    exact .inl ⟨fun _ => rfl, fun hno => absurd hexact hno⟩
  rw [if_neg fun h => hexact ((isSome_rule_iff hcc).mp h), getModelsWithMatch]
  cases hfind : order.find? (matchesPattern q.modelName) with
  | some pattern =>
    refine .inl ⟨fun h => absurd h hexact, fun _ => ⟨?_, find?_some hfind⟩⟩
    exact horder.mem_iff.mp (mem_of_find?_eq_some hfind)
  | none =>
    refine .inr ⟨hexact, rfl, fun pattern hpattern => ?_⟩
    have hno := find?_eq_none.mp hfind pattern (horder.mem_iff.mpr hpattern)
    simpa using hno

lemma exists_order (hcc : Consistent cc) (h : Candidate cc q entry) :
    ∃ order, order.Perm cc.newMatch ∧ entryUsed cc order q = entry := by
  by_cases hexact : HasEntry cc q.group q.modelName
  · refine ⟨cc.newMatch, List.Perm.refl _, ?_⟩
    rw [entryUsed, if_pos ((isSome_rule_iff hcc).mpr hexact), h.1 hexact]
  obtain ⟨hmem, hmatch⟩ := h.2 hexact
  refine ⟨entry :: cc.newMatch.erase entry, (perm_cons_erase hmem).symm, ?_⟩
  rw [entryUsed, if_neg fun h => hexact ((isSome_rule_iff hcc).mp h), getModelsWithMatch,
    find?_cons_of_pos hmatch, Option.getD_some]

lemma not_offers_empty {group : String} : ¬ ch.Offers group "" := by
  rintro ⟨-, h⟩
  simp [names] at h

lemma best_of_next (hcc : Consistent cc) (horder : order.Perm cc.newMatch)
    (h : cc.next order draw q = .channel ch) :
    Serves cc q (entryUsed cc order q) ∧ ch.Offers q.group (entryUsed cc order q) ∧
      Eligible cc q ch ∧
      ∀ other, Eligible cc q other → other.Offers q.group (entryUsed cc order q) →
        other.priority ≤ ch.priority := by
  obtain ⟨-, choice, hchoice, rfl⟩ := exists_mem_of_choose (next_eq_channel_iff.mp h)
  obtain ⟨-, helig, hoffers, hbest⟩ := front_spec hcc hchoice
  refine ⟨?_, hoffers, helig, hbest⟩
  rcases entryUsed_cases hcc horder with hcand | ⟨-, hused, -⟩
  · refine ⟨hcand.1, fun hno => ?_⟩
    obtain ⟨hmem, hmatch⟩ := hcand.2 hno
    exact ⟨((hcc.pattern _).mp hmem).1, hmatch⟩
  · rw [hused] at hoffers
    exact absurd hoffers not_offers_empty

lemma candidate_of_served (hcc : Consistent cc) (horder : order.Perm cc.newMatch)
    (h : Served cc q) : Candidate cc q (entryUsed cc order q) := by
  rcases entryUsed_cases hcc horder with hcand | ⟨hno, -, hnone⟩
  · exact hcand
  obtain ⟨entry, ch, hserves, hoffers, helig⟩ := h
  obtain ⟨hpattern, hmatch⟩ := hserves.2 hno
  have hmem := (hcc.pattern entry).mpr ⟨hpattern, ch, q.group, helig.has, hoffers⟩
  rw [hnone entry hmem] at hmatch
  cases hmatch

/-- **When Next is correct**: no channel can serve, or every entry that may be used has one to draw.
-/
theorem next_iff (set : ChannelRows) (changes : List (ℤ × Bool)) (q : Query) :
    (∀ order, order.Perm (loaded set changes).newMatch → ∀ draw,
      Correct (loaded set changes) q order draw) ↔ ¬ Served (loaded set changes) q ∨
      ∀ entry, Candidate (loaded set changes) q entry → Available (loaded set changes) q entry := by
  have hcc := consistent_loaded set changes
  generalize loaded set changes = cc at hcc ⊢
  constructor
  · intro h
    by_cases hserved : Served cc q
    · refine .inr fun entry hcand => ?_
      obtain ⟨order, horder, rfl⟩ := exists_order hcc hcand
      exact exists_next_iff.mp ((h order horder 0).complete.mpr hserved)
    · exact .inl hserved
  · intro h order horder draw
    refine ⟨⟨?_, fun hserved => ?_⟩, fun ch => best_of_next hcc horder⟩
    · rintro ⟨ch, hnext⟩
      obtain ⟨hserves, hoffers, helig, -⟩ := best_of_next hcc horder hnext
      exact ⟨_, ch, hserves, hoffers, helig⟩
    · rcases h with hno | hall
      · exact absurd hserved hno
      · exact exists_next_iff.mpr (hall _ (candidate_of_served hcc horder hserved))

/-- The pattern of group `b` comes first in the list, so group `a` is not served. -/
theorem shadowed : ∃ (set : ChannelRows) (ch : Channel) (q : Query),
      (∀ order, order = ["gpt*", "gpt-*"] ∨ order = ["gpt-*", "gpt*"] →
        order.Perm (loaded set []).newMatch) ∧
      (loaded set []).next ["gpt-*", "gpt*"] 0 q = .channel ch ∧
      (loaded set []).next ["gpt*", "gpt-*"] 0 q = .error "model not found" := by
  refine ⟨⟨[⟨1, "a", "gpt-*", 1, 0⟩, ⟨2, "b", "gpt*", 1, 0⟩], by decide⟩, ⟨1, "a", "gpt-*", 1, 0⟩,
    { group := "a", modelName := "gpt-4" }, ?_, ?_, ?_⟩
  · rintro order (rfl | rfl)
    · decide
    · decide
  · decide
  · decide

end Tokilake.Routing
