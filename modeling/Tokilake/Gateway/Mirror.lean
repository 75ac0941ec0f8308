import Mathlib.Data.Finset.Max
import Tokilake.Gateway.Rebuild
import Tokilake.Routing.Balance

/-! # The two routing tables

The channel index is meant to mirror the chooser of the Go server.

* `mirrors_iff`: when the index does. -/

namespace Tokilake.Gateway

open Lib List Routing Weighted
open Routing (isPattern matchesPattern names ChannelRows ChannelChoice load filterChannelId)
open Routing.Cooldowns (int64 isInCooldown Store)

variable {index : ChannelIndex} {now : ℕ} {group model entry : String} {skipIds : List ℤ}
  {ch : ChannelEntry} {order : List ChannelEntry}

structure Listing {β : Type} (table : String → Option β) (keys : List String) : Prop where
  nodup : keys.Nodup
  complete : ∀ key, key ∈ keys ↔ (table key).isSome

/-! ### What the index can return -/

/-- What `select_with_filter` can return; a number too large to be drawn makes no difference. -/
def selectIds (index : ChannelIndex) (now : ℕ) (group model : String) (skipIds : List ℤ) : Set ℤ :=
  { id | ∃ order patterns pick, order.Perm index.values ∧
    Listing ((rebuild index.channels order).matchPatterns group) patterns ∧
    (index.selectWithFilter (rebuild index.channels order) patterns now pick group model
      skipIds).1.map ChannelEntry.id = some id }

structure Top (index : ChannelIndex) (skipIds : List ℤ) (group entry : String) (ch : ChannelEntry) :
    Prop where
  usable : Usable index skipIds ch
  lists : ch.Lists group entry
  highest : ∀ other, Usable index skipIds other → other.Lists group entry →
    other.priority ≤ ch.priority

def Matching (model pattern : String) : Prop :=
  isPattern pattern = true ∧ matchesPattern model pattern = true

def Wild (group model : String) (ch : ChannelEntry) : Prop :=
  ∃ pattern, Matching model pattern ∧ ch.Lists group pattern

def Exact (index : ChannelIndex) (skipIds : List ℤ) (group model : String) : Prop :=
  isPattern model = false ∧ ∃ ch, Usable index skipIds ch ∧ ch.Lists group model

def Selects (index : ChannelIndex) (skipIds : List ℤ) (group model : String) (ch : ChannelEntry) :
    Prop :=
  Exact index skipIds group model ∧ Top index skipIds group model ch ∨
    ¬ Exact index skipIds group model ∧ Usable index skipIds ch ∧ Wild group model ch

variable (channels : AList fun _ : ℤ => ChannelEntry)

lemma tiers_rebuild (order : List ChannelEntry)
    (group model : String) :
    ((rebuild channels order).rule group model).getD [] = tiersOf (priorities channels
      (if isPattern model then [] else idsFor order group model)) := by
  rw [← ids_collect]
  show (((collect order).rule group model).map fun _ =>
    tiersOf (priorities channels ((collect order).ids group model))).getD [] = _
  cases hrule : (collect order).rule group model with
  | none =>
    rw [Tables.ids, hrule]
    rfl
  | some tiers => rfl

lemma mem_tierAt {id p : ℤ} {ids : List ℤ} : id ∈ tierAt (priorities index.channels ids) p ↔
      id ∈ ids ∧ ∃ ch, index.get id = some ch ∧ ch.priority = p := by
  simp only [tierAt, priorities, mem_map, mem_filter, mem_filterMap,
    Option.map_eq_some_iff, decide_eq_true_eq]
  constructor
  · rintro ⟨_, ⟨⟨id, hid, ch, hch, rfl⟩, rfl⟩, rfl⟩
    exact ⟨hid, ch, hch, rfl⟩
  · rintro ⟨hid, ch, hch, rfl⟩
    exact ⟨_, ⟨⟨id, hid, ch, hch, rfl⟩, rfl⟩, rfl⟩

def tierFor (index : ChannelIndex) (order : List ChannelEntry) (group model : String) (p : ℤ) :
    List ℤ := tierAt (priorities index.channels (idsFor order group model)) p

lemma exists_tiersFor (index : ChannelIndex) (order : List ChannelEntry) (group : String)
    (hmodel : isPattern model = false) :
    ∃ ps : List ℤ, ps.Pairwise (· > ·) ∧ (∀ p, tierFor index order group model p ≠ [] → p ∈ ps) ∧
      ((rebuild index.channels order).rule group model).getD [] =
        ps.map (tierFor index order group model) := by
  rw [tiers_rebuild, hmodel, if_neg (by simp)]
  obtain ⟨ps, hsorted, hmem, htiers⟩ :=
    tiersOf_spec (priorities index.channels (idsFor order group model))
  exact ⟨ps, hsorted, fun p hp => (hmem p).mpr (tierAt_ne_nil.mp hp), htiers⟩

lemma mem_idsFor_iff (horder : order.Perm index.values) (husable : Usable index skipIds ch) :
    ch.id ∈ idsFor order group model ↔ ch.Lists group model := by
  rw [mem_idsFor]
  constructor
  · rintro ⟨c, hc, -, hlists, hid⟩
    have hget := mem_values.mp (horder.mem_iff.mp hc)
    rw [hid, husable.has, Option.some.injEq] at hget
    exact hget ▸ hlists
  · intro hlists
    exact ⟨ch, horder.mem_iff.mpr (mem_values.mpr husable.has), husable.enabled, hlists, rfl⟩

lemma mem_tierFor (horder : order.Perm index.values) (husable : Usable index skipIds ch) {p : ℤ} :
    ch.id ∈ tierFor index order group model p ↔ ch.Lists group model ∧ ch.priority = p := by
  rw [tierFor, mem_tierAt, mem_idsFor_iff horder husable, husable.has]
  simp

lemma tierFor_cons (order : List ChannelEntry) (husable : Usable index skipIds ch)
    (hlists : ch.Lists group model) :
    ∃ rest, tierFor index (ch :: order) group model ch.priority = ch.id :: rest := by
  obtain ⟨rest, hids⟩ := idsFor_cons order husable.enabled hlists
  have hlook : index.channels.lookup ch.id = some ch := husable.has
  refine ⟨tierAt (priorities index.channels rest) ch.priority, ?_⟩
  rw [tierFor, hids]
  simp [tierAt, priorities, hlook]

lemma exists_split (horder : order.Perm index.values) (hmodel : isPattern model = false)
    (htop : Top index skipIds group model ch) :
    ∃ before after, ((rebuild index.channels order).rule group model).getD [] =
        before ++ tierFor index order group model ch.priority :: after ∧
      ∀ tier ∈ before, Spent index skipIds tier := by
  obtain ⟨ps, hsorted, hmem, htiers⟩ := exists_tiersFor index order group hmodel
  have hp := hmem ch.priority
    (ne_nil_of_mem ((mem_tierFor horder htop.usable).mpr ⟨htop.lists, rfl⟩))
  obtain ⟨higher, lower, rfl⟩ := append_of_mem hp
  rw [map_append, map_cons] at htiers
  refine ⟨_, _, htiers, fun tier htier other hother hid => ?_⟩
  obtain ⟨p, hp', rfl⟩ := mem_map.mp htier
  obtain ⟨hlists, rfl⟩ := (mem_tierFor horder hother).mp hid
  have hgt := (pairwise_append.mp hsorted).2.2 _ hp' _ mem_cons_self
  have hle := htop.highest other hother hlists
  omega

lemma top_of_split (horder : order.Perm index.values) {before after : List (List ℤ)}
    {tier : List ℤ} (husable : Usable index skipIds ch) (hid : ch.id ∈ tier)
    (htiers : ((rebuild index.channels order).rule group model).getD [] = before ++ tier :: after)
    (hbefore : ∀ tier ∈ before, Spent index skipIds tier) :
    isPattern model = false ∧ Top index skipIds group model ch := by
  cases hmodel : isPattern model with
  | true =>
    rw [tiers_rebuild, hmodel] at htiers
    have hlen := congrArg length htiers
    simp [priorities, tiersOf, Grouping.closed] at hlen
  | false =>
    refine ⟨rfl, ?_⟩
    obtain ⟨ps, hsorted, hmem, heq⟩ := exists_tiersFor index order group hmodel
    rw [heq] at htiers
    obtain ⟨higher, rest, rfl, rfl, hrest⟩ := map_eq_append_iff.mp htiers
    obtain ⟨p, lower, rfl, rfl, -⟩ := map_eq_cons_iff.mp hrest
    obtain ⟨hlists, rfl⟩ := (mem_tierFor horder husable).mp hid
    refine ⟨husable, hlists, fun other hother hoffers => ?_⟩
    have hin := (mem_tierFor horder hother).mpr ⟨hoffers, rfl⟩
    have hp := hmem other.priority (ne_nil_of_mem hin)
    rcases mem_append.mp hp with hhigher | hlower
    · exact absurd hin (hbefore _ (mem_map_of_mem hhigher) other hother)
    · rcases mem_cons.mp hlower with heq | hlower
      · exact heq.le
      · exact ((pairwise_cons.mp (pairwise_append.mp hsorted).2.1).1 _ hlower).le

lemma not_exact (horder : order.Perm index.values)
    (hspent : ∀ tier ∈ ((rebuild index.channels order).rule group model).getD [],
      Spent index skipIds tier) : ¬ Exact index skipIds group model := by
  rintro ⟨hmodel, ch, husable, hlists⟩
  obtain ⟨ps, -, hmem, heq⟩ := exists_tiersFor index order group hmodel
  have hin := (mem_tierFor horder husable).mpr ⟨hlists, rfl⟩
  have hp := hmem ch.priority (ne_nil_of_mem hin)
  exact hspent _ (heq ▸ mem_map_of_mem hp) ch husable hin

lemma matchPatterns_rebuild
    (order : List ChannelEntry) (group model : String) :
    (rebuild channels order).matchPatterns group model =
      entryOf (if isPattern model then idsFor order group model else []) :=
  (collected order).matchPatterns group model

lemma matchPatterns_eq_some {channels : AList fun _ : ℤ => ChannelEntry} {pattern : String}
    {ids : List ℤ} (h : (rebuild channels order).matchPatterns group pattern = some ids) :
    isPattern pattern = true ∧ ids = idsFor order group pattern := by
  rw [matchPatterns_rebuild, entryOf] at h
  cases hpattern : isPattern pattern with
  | false => simp [hpattern] at h
  | true =>
    rw [hpattern, if_pos rfl] at h
    by_cases hnil : idsFor order group pattern = []
    · simp [hnil] at h
    · rw [if_neg hnil, Option.some.injEq] at h
      exact ⟨rfl, h.symm⟩

lemma exists_listing (order : List ChannelEntry)
    (group : String) : ∃ keys, Listing ((rebuild channels order).matchPatterns group) keys := by
  let table := (rebuild channels order).matchPatterns group
  refine ⟨(((order.flatMap ChannelEntry.offered).map fun o => o.2.2).filter
    fun key => (table key).isSome).dedup, nodup_dedup _, fun key => ?_⟩
  rw [mem_dedup, mem_filter, and_iff_right_iff_imp]
  intro hsome
  obtain ⟨ids, hids⟩ := Option.isSome_iff_exists.mp hsome
  have hne : idsFor order group key ≠ [] := by
    intro hnil
    rw [show table key = _ from matchPatterns_rebuild channels order group key, hnil] at hids
    simp [entryOf] at hids
  obtain ⟨id, hid⟩ := exists_mem_of_ne_nil _ hne
  obtain ⟨ch, hch, hstatus, hlists, -⟩ := mem_idsFor.mp hid
  exact mem_map.mpr ⟨(ch, group, key),
    mem_flatMap.mpr ⟨ch, hch, mem_offered.mpr ⟨rfl, hstatus, hlists⟩⟩, rfl⟩

lemma Listing.front {β : Type} {table : String → Option β} {keys : List String} {key : String}
    (h : Listing table keys) (hkey : (table key).isSome) :
    Listing table (key :: keys.erase key) := by
  have hperm := (perm_cons_erase ((h.complete key).mpr hkey)).symm
  exact ⟨hperm.nodup_iff.mpr h.nodup, fun k => by rw [hperm.mem_iff, h.complete]⟩

lemma selectWithFilter_eq (index : ChannelIndex) (tables : Tables) (patterns : List String)
    (now pick : ℕ) (group model : String) (skipIds : List ℤ) :
    (index.selectWithFilter tables patterns now pick group model skipIds).1 =
      let first := selectFromTiers now pick model skipIds index ((tables.rule group model).getD [])
      first.1.or (((patterns.find? (matchesPattern model)).bind (tables.matchPatterns group)).bind
        fun ids => (selectFromTiers now pick model skipIds first.2 [ids]).1) := by
  unfold ChannelIndex.selectWithFilter
  generalize selectFromTiers now pick model skipIds index
    ((tables.rule group model).getD []) = first
  obtain ⟨_ | ch, rest⟩ := first
  · cases (patterns.find? (matchesPattern model)).bind (tables.matchPatterns group) <;> rfl
  · rfl

lemma of_select (hquiet : Quiet index now model) (horder : order.Perm index.values)
    {patterns : List String} {pick : ℕ}
    (h : (index.selectWithFilter (rebuild index.channels order) patterns now pick group model
      skipIds).1 = some ch) : Selects index skipIds group model ch := by
  rw [selectWithFilter_eq] at h
  have hfirst : Selected index now model skipIds _ (selectFromTiers now pick model skipIds index
      (((rebuild index.channels order).rule group model).getD [])) := selected _ hquiet
  rcases hfirst.outcome with ⟨hnone, hspent⟩ |
    ⟨c, before, tier, after, hsome, husable, hid, htiers, hbefore⟩
  · refine .inr ⟨not_exact horder hspent, ?_⟩
    simp only [hnone, Option.none_or, Option.bind_eq_some_iff] at h
    obtain ⟨ids, ⟨pattern, hfind, hids⟩, hselect⟩ := h
    obtain ⟨hpattern, rfl⟩ := matchPatterns_eq_some hids
    rcases (selected [idsFor order group pattern] hfirst.quiet).outcome with ⟨hnone', -⟩ |
      ⟨c, before, tier, after, hsome, hu, hid, hsplit, -⟩
    · rw [hselect] at hnone'
      cases hnone'
    rw [hselect, Option.some.injEq] at hsome
    subst hsome
    have husable := (usable_congr hfirst.channels).mp hu
    have htier : tier ∈ [idsFor order group pattern] := hsplit ▸ by simp
    rw [mem_singleton.mp htier] at hid
    exact ⟨husable, pattern, ⟨hpattern, find?_some hfind⟩, (mem_idsFor_iff horder husable).mp hid⟩
  · simp only [hsome, Option.some_or, Option.some.injEq] at h
    subst h
    obtain ⟨hmodel, htop⟩ := top_of_split horder husable hid htiers hbefore
    exact .inl ⟨⟨hmodel, c, husable, htop.lists⟩, htop⟩

lemma perm_cons_erase (husable : Usable index skipIds ch) :
    (ch :: index.values.erase ch).Perm index.values :=
  (List.perm_cons_erase (mem_values.mpr husable.has)).symm

lemma mem_selectIds (hquiet : Quiet index now model) {id : ℤ} :
    id ∈ selectIds index now group model skipIds ↔
      ∃ ch, ch.id = id ∧ Selects index skipIds group model ch := by
  constructor
  · rintro ⟨order, patterns, pick, horder, -, hsome⟩
    obtain ⟨ch, hch, rfl⟩ := Option.map_eq_some_iff.mp hsome
    exact ⟨ch, rfl, of_select hquiet horder hch⟩
  · rintro ⟨ch, rfl, ⟨hexact, htop⟩ | ⟨hexact, husable, pattern, ⟨hpattern, hmatch⟩, hlists⟩⟩
    · have horder := perm_cons_erase htop.usable
      obtain ⟨keys, hkeys⟩ := exists_listing index.channels (ch :: index.values.erase ch) group
      refine ⟨_, keys, 0, horder, hkeys, ?_⟩
      obtain ⟨before, after, htiers, hbefore⟩ := exists_split horder hexact.1 htop
      obtain ⟨rest, htier⟩ := tierFor_cons (index.values.erase ch) htop.usable htop.lists
      rw [selectWithFilter_eq, htiers, htier]
      simp only [select_first hquiet before rest after hbefore htop.usable, Option.some_or,
        Option.map_some]
    · have horder := perm_cons_erase husable
      obtain ⟨keys, hkeys⟩ := exists_listing index.channels (ch :: index.values.erase ch) group
      obtain ⟨rest, hids⟩ := idsFor_cons (index.values.erase ch) husable.enabled hlists
      have hentry : (rebuild index.channels (ch :: index.values.erase ch)).matchPatterns group
          pattern = some (ch.id :: rest) := by
        rw [matchPatterns_rebuild, hpattern, if_pos rfl, hids]
        rfl
      refine ⟨_, pattern :: keys.erase pattern, 0, horder, hkeys.front (by rw [hentry]; rfl), ?_⟩
      obtain ⟨hquiet', hchannels, houtcome⟩ : Selected index now model skipIds _
        (selectFromTiers now 0 model skipIds index
          (((rebuild index.channels (ch :: index.values.erase ch)).rule group model).getD [])) :=
        selected _ hquiet
      rw [selectWithFilter_eq, find?_cons_of_pos hmatch, Option.bind_some, hentry]
      rcases houtcome with ⟨hnone, -⟩ | ⟨c, before, tier, after, -, hu, hid, htiers, hbefore⟩
      · have hfirst := select_first hquiet' [] rest [] (by simp)
          ((usable_congr hchannels).mpr husable)
        rw [nil_append] at hfirst
        simp only [hnone, Option.none_or, Option.bind_some, hfirst, Option.map_some]
      · obtain ⟨hmodel, htop⟩ := top_of_split horder hu hid htiers hbefore
        exact absurd ⟨hmodel, c, hu, htop.lists⟩ hexact

/-! ### What the chooser can return -/

def ChannelEntry.toRow (ch : ChannelEntry) : Routing.Channel :=
  ⟨ch.id, ch.group, ch.models, UInt64.ofNat ch.weight, ch.priority⟩

lemma nodup_ids (horder : order.Perm index.values) : (order.map ChannelEntry.id).Nodup := by
  rw [(horder.map ChannelEntry.id).nodup_iff]
  have hkeys : index.values.map ChannelEntry.id = index.channels.keys := by
    unfold ChannelIndex.values AList.keys keys
    rw [map_map]
    refine map_congr_left fun e he => ?_
    exact index.keyed e.1 e.2 (AList.mem_lookup_iff.mpr he)
  rw [hkeys]
  exact index.channels.nodupKeys

variable (index)

def ChannelIndex.rows (order : List ChannelEntry)
    (horder : order.Perm index.values) : ChannelRows where
  rows := (order.filter fun ch => ch.status = 1).map ChannelEntry.toRow
  nodup := by
    rw [map_map]
    exact (nodup_ids horder).sublist (filter_sublist.map ChannelEntry.id)

def ask (group model : String) (skipIds : List ℤ) (cooldowns : Store) (at' : ℤ) :
    Routing.Query where
  group := group
  modelName := model
  filters := [filterChannelId skipIds]
  cooldowns := cooldowns
  now := at'

def nextIds (q : Routing.Query) : Set ℤ :=
  { id | ∃ order, ∃ horder : order.Perm index.values, ∃ patterns draw row,
    patterns.Perm (load (index.rows order horder)).newMatch ∧
    (load (index.rows order horder)).next patterns draw q = .channel row ∧ row.id = id }

lemma mem_names {list name : String} : name ∈ names list ↔ name ∈ items list ∧ name ≠ "" := by
  simp [names, items]

lemma offers_toRow : ch.toRow.Offers group model ↔
    ch.Lists group model ∧ group ≠ "" ∧ model ≠ "" := by
  unfold Routing.Channel.Offers ChannelEntry.Lists ChannelEntry.toRow
  rw [mem_names, mem_names]
  tauto

lemma times_toRow (hgroup : group ≠ "") (hentry : entry ≠ "") :
    ch.toRow.times group entry = (items ch.group).count group * (items ch.models).count entry := by
  have hcount : ∀ {list name : String}, name ≠ "" →
      (names list).count name = (items list).count name :=
    fun hname => count_filter (by simpa using hname)
  unfold Routing.Channel.times
  rw [hcount hgroup, hcount hentry]
  rfl

def Own (group model : String) : Prop :=
  model ≠ "" ∧ ∃ ch, index.get ch.id = some ch ∧ ch.status = 1 ∧ ch.Lists group model

/-- The weights that are added up for a priority: a name that stands twice counts twice. -/
def weightFor (skipIds : List ℤ) (group entry : String) (p : ℤ) : ℕ :=
  total ((index.values.filter fun ch =>
    ch.status = 1 ∧ ch.id ∉ skipIds ∧ ch.priority = p).map fun ch =>
      (ch, (items ch.group).count group * (items ch.models).count entry * ch.weight))

structure Drawn (index : ChannelIndex) (skipIds : List ℤ) (group entry : String)
    (ch : ChannelEntry) : Prop extends Top index skipIds group entry ch where
  drawable : 0 < int64 (weightFor index skipIds group entry ch.priority)

/-- The channels of highest priority of the model's own entry, else of a matching pattern. -/
def Chooses (skipIds : List ℤ) (group model : String) (ch : ChannelEntry) : Prop :=
  group ≠ "" ∧ (Own index group model ∧ Drawn index skipIds group model ch ∨
    ¬ Own index group model ∧
      ∃ pattern, Matching model pattern ∧ Drawn index skipIds group pattern ch)

variable {index}

lemma Chooses.usable (h : Chooses index skipIds group model ch) : Usable index skipIds ch := by
  obtain ⟨-, ⟨-, hdrawn⟩ | ⟨-, pattern, -, hdrawn⟩⟩ := h
  · exact hdrawn.usable
  · exact hdrawn.usable

lemma Selects.usable (h : Selects index skipIds group model ch) : Usable index skipIds ch := by
  obtain ⟨-, htop⟩ | ⟨-, husable, -⟩ := h
  · exact htop.usable
  · exact husable

lemma flatMap_rows {f : ℤ → Option ChannelChoice} {p : ℤ} {l : List ChannelEntry}
    (hf : ∀ ch ∈ l, ch.status = 1 →
      f ch.id = if ch.id ∈ skipIds then none else some ⟨ch.toRow, false⟩) :
    ((l.filter fun ch => ch.status = 1).map ChannelEntry.toRow).flatMap (fun row =>
      (if row.priority = p then replicate (row.times group entry) row.id else []).filterMap f) =
      (l.filter fun ch => ch.status = 1 ∧ ch.id ∉ skipIds ∧ ch.priority = p).flatMap fun ch =>
        replicate (ch.toRow.times group entry) ⟨ch.toRow, false⟩ := by
  induction l with
  | nil => rfl
  | cons ch l ih =>
    have hrest := ih fun c hc => hf c (mem_cons_of_mem _ hc)
    by_cases hstatus : ch.status = 1
    · have hkept : f ch.toRow.id = _ := hf ch mem_cons_self hstatus
      rw [filter_cons_of_pos (by simpa using hstatus), map_cons, flatMap_cons, hrest]
      by_cases hp : ch.priority = p
      · rw [if_pos (show ch.toRow.priority = p from hp)]
        split_ifs at hkept with hskip
        · rw [filterMap_replicate_of_none hkept, filter_cons_of_neg (by simp [hskip]), nil_append]
        · rw [filterMap_replicate_of_some hkept,
            filter_cons_of_pos (by simp [hstatus, hskip, hp]), flatMap_cons]
      · rw [if_neg (show ¬ ch.toRow.priority = p from hp), filterMap_nil, nil_append,
          filter_cons_of_neg (by simp [hp])]
    · rw [filter_cons_of_neg (by simpa using hstatus), hrest,
        filter_cons_of_neg (by simp [hstatus])]

section
variable (hweights : ∀ id ch, index.get id = some ch → 1 ≤ ch.weight ∧ ch.weight < 2 ^ 32)
include hweights

lemma toNat_weight (hget : index.get ch.id = some ch) : ch.toRow.weight.toNat = ch.weight := by
  have h := hweights _ _ hget
  exact Nat.mod_eq_of_lt (by omega)

lemma withWeight_toRow (hget : index.get ch.id = some ch) : ch.toRow.withWeight = ch.toRow := by
  have h := hweights _ _ hget
  have hnat := toNat_weight hweights hget
  unfold Routing.Channel.withWeight
  rw [if_neg]
  intro hzero
  rw [hzero] at hnat
  simp at hnat
  omega

lemma has_load (horder : order.Perm index.values) {row : Routing.Channel} :
    (load (index.rows order horder)).Has row ↔
      ∃ ch, index.get ch.id = some ch ∧ ch.status = 1 ∧ ch.toRow = row := by
  rw [Routing.ChannelsChooser.Has, getChannel_load]
  simp only [ChannelIndex.rows, mem_map, mem_filter, decide_eq_true_eq]
  constructor
  · rintro ⟨_, ⟨ch, ⟨hch, hstatus⟩, rfl⟩, -, heq⟩
    have hget := mem_values.mp (horder.mem_iff.mp hch)
    rw [withWeight_toRow hweights hget] at heq
    exact ⟨ch, hget, hstatus, heq⟩
  · rintro ⟨ch, hget, hstatus, rfl⟩
    exact ⟨ch.toRow, ⟨ch, ⟨horder.mem_iff.mpr (mem_values.mpr hget), hstatus⟩, rfl⟩, rfl,
      withWeight_toRow hweights hget⟩

lemma hasEntry_load (horder : order.Perm index.values) :
    Routing.HasEntry (load (index.rows order horder)) group model ↔
    group ≠ "" ∧ Own index group model := by
  constructor
  · rintro ⟨row, hhas, hoffers⟩
    obtain ⟨ch, hget, hstatus, rfl⟩ := (has_load hweights horder).mp hhas
    obtain ⟨hlists, hgroup, hmodel⟩ := offers_toRow.mp hoffers
    exact ⟨hgroup, hmodel, ch, hget, hstatus, hlists⟩
  · rintro ⟨hgroup, hmodel, ch, hget, hstatus, hlists⟩
    exact ⟨ch.toRow, (has_load hweights horder).mpr ⟨ch, hget, hstatus, rfl⟩,
      offers_toRow.mpr ⟨hlists, hgroup, hmodel⟩⟩

lemma drawable_iff {valid : List ChannelChoice}
    (hvalid : ∀ choice ∈ valid, ∃ ch, index.get ch.id = some ch ∧ choice.channel = ch.toRow) :
    Routing.Drawable valid ↔ 0 < int64 (total (weighted valid)) := by
  rw [Routing.Drawable, totalWeight_eq_total]
  refine ⟨?_, Or.inr⟩
  rintro (hone | hpos)
  · obtain ⟨choice, rfl⟩ := length_eq_one_iff.mp hone
    obtain ⟨ch, hget, hchannel⟩ := hvalid choice mem_cons_self
    have hweight := hweights _ _ hget
    have hnat := toNat_weight hweights hget
    have htotal : total (weighted [choice]) = ch.weight := by
      simp only [weighted, map_cons, map_nil, total, hchannel, hnat]
      rfl
    rw [htotal, int64_of_lt (by omega) (by omega)]
    omega
  · exact hpos

variable (horder : order.Perm index.values) {cooldowns : Store} {at' : ℤ}
  (hcool : ∀ id, isInCooldown cooldowns at' id model = false)
include hcool

lemma lookup_filter (hch : ch ∈ order) (hstatus : ch.status = 1) :
    (((load (index.rows order horder)).channels.lookup ch.id).filter fun choice =>
      !choice.disable && !isInCooldown cooldowns at' ch.id model &&
        !([filterChannelId skipIds].any fun filter => filter ch.id choice)) =
      if ch.id ∈ skipIds then none else some ⟨ch.toRow, false⟩ := by
  have hget := mem_values.mp (horder.mem_iff.mp hch)
  have hhas := (has_load hweights horder).mpr ⟨ch, hget, hstatus, rfl⟩
  obtain ⟨⟨c, disable⟩, hlook, hchannel⟩ := Option.map_eq_some_iff.mp hhas
  have hdisable := lookup_load hlook
  have hlook' : (load (index.rows order horder)).channels.lookup ch.id =
      some ⟨ch.toRow, false⟩ := by
    rw [← hchannel, ← hdisable]
    exact hlook
  rw [hlook', Option.filter_some, hcool]
  by_cases hskip : ch.id ∈ skipIds <;> simp [hskip, filterChannelId]

lemma validChannels_rows (p : ℤ) :
    (load (index.rows order horder)).validChannels (ask group model skipIds cooldowns at')
        ((load (index.rows order horder)).ids group entry p) =
      (order.filter fun ch => ch.status = 1 ∧ ch.id ∉ skipIds ∧ ch.priority = p).flatMap fun ch =>
        replicate (ch.toRow.times group entry) ⟨ch.toRow, false⟩ := by
  rw [ids_load, Routing.ChannelsChooser.validChannels, filterMap_flatMap]
  exact flatMap_rows fun ch hch hstatus => lookup_filter hweights horder hcool hch hstatus

lemma eligible_load
    {row : Routing.Channel} :
    Routing.Eligible (load (index.rows order horder)) (ask group model skipIds cooldowns at') row ↔
      ∃ ch, Usable index skipIds ch ∧ ch.toRow = row := by
  constructor
  · intro helig
    obtain ⟨ch, hget, hstatus, rfl⟩ := (has_load hweights horder).mp helig.has
    have hkept := helig.kept _ (mem_singleton.mpr rfl)
    exact ⟨ch, ⟨hget, hstatus, of_decide_eq_false hkept⟩, rfl⟩
  · rintro ⟨ch, husable, rfl⟩
    have hhas := (has_load hweights horder).mpr ⟨ch, husable.has, husable.enabled, rfl⟩
    obtain ⟨⟨c, disable⟩, hlook, hchannel⟩ := Option.map_eq_some_iff.mp hhas
    have hdisable := lookup_load hlook
    simp only at hchannel hdisable
    refine ⟨?_, hcool _, fun filter hfilter => ?_⟩
    · rw [hlook, hchannel, hdisable]
    · rw [mem_singleton.mp hfilter]
      exact decide_eq_false husable.kept

lemma total_validChannels
    (hgroup : group ≠ "") (hentry : entry ≠ "") (p : ℤ) :
    total (weighted ((load (index.rows order horder)).validChannels
        (ask group model skipIds cooldowns at')
          ((load (index.rows order horder)).ids group entry p))) =
      weightFor index skipIds group entry p := by
  rw [validChannels_rows hweights horder hcool, weightFor, ← total_perm ((horder.filter _).map _)]
  have hget : ∀ ch ∈ order.filter fun ch => ch.status = 1 ∧ ch.id ∉ skipIds ∧ ch.priority = p,
      index.get ch.id = some ch :=
    fun ch hch => mem_values.mp (horder.mem_iff.mp (mem_of_mem_filter hch))
  generalize order.filter (fun ch => ch.status = 1 ∧ ch.id ∉ skipIds ∧ ch.priority = p) = l
    at hget ⊢
  induction l with
  | nil => rfl
  | cons ch l ih =>
    have hrest := ih fun c hc => hget c (mem_cons_of_mem _ hc)
    have hweight := toNat_weight hweights (hget ch mem_cons_self)
    rw [flatMap_cons, weighted, map_append, total_append,
      map_replicate, total_replicate, map_cons, total, ← hrest, hweight, times_toRow hgroup hentry]
    rfl

lemma front_of_top
    (hgroup : group ≠ "") (hentry : entry ≠ "") (htop : Top index skipIds group entry ch) :
    front (load (index.rows order horder)) (ask group model skipIds cooldowns at') entry =
      (load (index.rows order horder)).validChannels (ask group model skipIds cooldowns at')
        ((load (index.rows order horder)).ids group entry ch.priority) := by
  have hcc := consistent_load (index.rows order horder)
  have helig : Routing.Eligible (load (index.rows order horder))
      (ask group model skipIds cooldowns at') ch.toRow :=
    (eligible_load hweights horder hcool).mpr ⟨ch, htop.usable, rfl⟩
  have hoffers := offers_toRow.mpr ⟨htop.lists, hgroup, hentry⟩
  obtain ⟨choice, hchoice⟩ := exists_mem_of_ne_nil _ (front_ne_nil hcc helig hoffers)
  obtain ⟨hfront, helig', hoffers', hbest⟩ := front_spec hcc hchoice
  obtain ⟨c, husable, heq⟩ := (eligible_load hweights horder hcool).mp helig'
  -- the tier is that of this channel, too
  have hprio : choice.channel.priority = ch.priority := by
    have hle := hbest ch.toRow helig hoffers
    rw [← heq] at hoffers' hle ⊢
    have hge := htop.highest c husable (offers_toRow.mp hoffers').1
    exact le_antisymm hge hle
  rw [hfront, hprio]
  rfl

lemma drawable_front
    (hgroup : group ≠ "") (hentry : entry ≠ "") (htop : Top index skipIds group entry ch) :
    Routing.Drawable (front (load (index.rows order horder))
        (ask group model skipIds cooldowns at') entry) ↔
      0 < int64 (weightFor index skipIds group entry ch.priority) := by
  have hcc := consistent_load (index.rows order horder)
  rw [drawable_iff hweights, front_of_top hweights horder hcool hgroup hentry htop,
    total_validChannels hweights horder hcool hgroup hentry]
  intro choice hchoice
  obtain ⟨c, husable, heq⟩ := (eligible_load hweights horder hcool).mp
    (front_spec hcc hchoice).2.1
  exact ⟨c, husable.has, heq.symm⟩

lemma choose_front
    {rest : List ChannelEntry} (horder : (ch :: rest).Perm index.values)
    (hgroup : group ≠ "") (hentry : entry ≠ "") (hdrawn : Drawn index skipIds group entry ch) :
    choose 0 (front (load (index.rows (ch :: rest) horder))
      (ask group model skipIds cooldowns at') entry) = some (.channel ch.toRow) := by
  have hdraw :=
    (drawable_front hweights horder hcool hgroup hentry hdrawn.toTop).mpr hdrawn.drawable
  have htop := hdrawn.toTop
  obtain ⟨k, htimes⟩ : ∃ k, ch.toRow.times group entry = k + 1 := by
    have hpos := times_pos_iff.mpr (offers_toRow.mpr ⟨htop.lists, hgroup, hentry⟩)
    exact ⟨_, (Nat.succ_pred_eq_of_pos hpos).symm⟩
  rw [front_of_top hweights horder hcool hgroup hentry htop,
    validChannels_rows hweights horder hcool, filter_cons_of_pos
      (by simp [htop.usable.enabled, htop.usable.kept]), flatMap_cons, htimes,
    replicate_succ, cons_append] at hdraw ⊢
  refine choose_zero hdraw ?_
  have hweight := hweights _ _ htop.usable.has
  have hnat := toNat_weight hweights htop.usable.has
  rw [weight_of_lt (by simp only [hnat]; omega)]
  simp only [hnat]
  omega

lemma mem_nextIds {id : ℤ} : id ∈ nextIds index (ask group model skipIds cooldowns at') ↔
      ∃ ch, ch.id = id ∧ Chooses index skipIds group model ch := by
  constructor
  · rintro ⟨order, horder, patterns, draw, row, hperm, hnext, rfl⟩
    have hcc := consistent_load (index.rows order horder)
    obtain ⟨hdraw, choice, hchoice, rfl⟩ := exists_mem_of_choose (next_eq_channel_iff.mp hnext)
    have hused := entryUsed_cases (q := ask group model skipIds cooldowns at') hcc hperm
    generalize entryUsed (load (index.rows order horder)) patterns
      (ask group model skipIds cooldowns at') = entry at hdraw hchoice hused
    obtain ⟨-, helig, hoffers, hbest⟩ := front_spec hcc hchoice
    obtain ⟨ch, husable, heq⟩ := (eligible_load hweights horder hcool).mp helig
    rw [← heq] at hoffers hbest ⊢
    obtain ⟨hlists, hgroup, hentry⟩ := offers_toRow.mp hoffers
    refine ⟨ch, rfl, hgroup, ?_⟩
    have htop : Top index skipIds group entry ch := by
      refine ⟨husable, hlists, fun other hother hother' => ?_⟩
      exact hbest other.toRow ((eligible_load hweights horder hcool).mpr ⟨other, hother, rfl⟩)
        (offers_toRow.mpr ⟨hother', hgroup, hentry⟩)
    have hdrawn : Drawn index skipIds group entry ch :=
      ⟨htop, (drawable_front hweights horder hcool hgroup hentry htop).mp hdraw⟩
    have hown : _ ↔ group ≠ "" ∧ Own index group model := hasEntry_load hweights horder
    rcases hused with hcand | ⟨-, hempty, -⟩
    · by_cases hhas : Own index group model
      · rw [hcand.1 (hown.mpr ⟨hgroup, hhas⟩)] at hdrawn
        exact .inl ⟨hhas, hdrawn⟩
      · obtain ⟨hmem, hmatch⟩ := hcand.2 fun h => hhas (hown.mp h).2
        exact .inr ⟨hhas, _, ⟨((hcc.pattern _).mp hmem).1, hmatch⟩, hdrawn⟩
    · exact absurd hempty hentry
  · rintro ⟨ch, rfl, hchooses⟩
    have husable := hchooses.usable
    obtain ⟨hgroup, hcases⟩ := hchooses
    have horder := perm_cons_erase husable
    have hcc := consistent_load (index.rows _ horder)
    have hown : _ ↔ group ≠ "" ∧ Own index group model := hasEntry_load hweights horder
    obtain ⟨entry, hentry, hcand, hdrawn⟩ : ∃ entry, entry ≠ "" ∧
        Routing.Candidate (load (index.rows _ horder))
          (ask group model skipIds cooldowns at') entry ∧
        Drawn index skipIds group entry ch := by
      rcases hcases with ⟨hhas, hdrawn⟩ | ⟨hhas, pattern, ⟨hpattern, hmatch⟩, hdrawn⟩
      · exact ⟨model, hhas.1,
          ⟨fun _ => rfl, fun hno => absurd (hown.mpr ⟨hgroup, hhas⟩) hno⟩, hdrawn⟩
      have hne : pattern ≠ "" := by
        rintro rfl
        exact absurd hpattern (by decide)
      refine ⟨pattern, hne, ⟨fun h => absurd (hown.mp h).2 hhas, fun _ => ⟨?_, hmatch⟩⟩, hdrawn⟩
      exact (hcc.pattern _).mpr ⟨hpattern, ch.toRow, group,
        (has_load hweights horder).mpr ⟨ch, husable.has, husable.enabled, rfl⟩,
        offers_toRow.mpr ⟨hdrawn.lists, hgroup, hne⟩⟩
    obtain ⟨patterns, hperm, hused⟩ := exists_order hcc hcand
    refine ⟨_, horder, patterns, 0, ch.toRow, hperm, next_eq_channel_iff.mpr ?_, rfl⟩
    rw [hused]
    exact choose_front hweights hcool horder hgroup hentry hdrawn

end

/-! ### When the two agree -/

structure Alike (index : ChannelIndex) (skipIds : List ℤ) (group model : String) : Prop where
  blankGroup : group = "" →
    ¬ Exact index skipIds group model ∧ ∀ ch, Usable index skipIds ch → ¬ Wild group model ch
  own : group ≠ "" → model ≠ "" → Exact index skipIds group model → ∀ ch,
    Top index skipIds group model ch → Drawn index skipIds group model ch
  blankModel : group ≠ "" → model = "" → Exact index skipIds group model → ∀ ch,
    Top index skipIds group model ch ↔
      ∃ pattern, Matching model pattern ∧ Drawn index skipIds group pattern ch
  spent : group ≠ "" → Own index group model → ¬ Exact index skipIds group model → ∀ ch,
    Usable index skipIds ch → Wild group model ch → Drawn index skipIds group model ch
  tiers : group ≠ "" → ¬ Own index group model → ¬ Exact index skipIds group model → ∀ ch,
    Usable index skipIds ch → Wild group model ch →
      ∃ pattern, Matching model pattern ∧ Drawn index skipIds group pattern ch

lemma own_of_exact (hmodel : model ≠ "") (h : Exact index skipIds group model) :
    Own index group model := by
  obtain ⟨-, ch, husable, hlists⟩ := h
  exact ⟨hmodel, ch, husable.has, husable.enabled, hlists⟩

lemma matching_self (h : isPattern model = true) : Matching model model := by
  refine ⟨h, ?_⟩
  rw [matchesPattern, isPrefixOf_iff_prefix]
  exact rdropWhile_prefix _ _

lemma eq_of_usable {other : ChannelEntry} (h : Usable index skipIds ch)
    (hother : Usable index skipIds other) (hid : ch.id = other.id) : ch = other := by
  have hget := h.has
  rw [hid, hother.has, Option.some.injEq] at hget
  exact hget.symm

open Classical in
lemma exists_top (h : ∃ ch, Usable index skipIds ch ∧ ch.Lists group entry) :
    ∃ ch, Top index skipIds group entry ch := by
  obtain ⟨first, hfirst, hlists⟩ := h
  let all := index.values.toFinset.filter fun ch => Usable index skipIds ch ∧ ch.Lists group entry
  have hmem : ∀ ch, Usable index skipIds ch → ch.Lists group entry → ch ∈ all := by
    intro ch husable hlists
    simp only [all, Finset.mem_filter, mem_toFinset]
    exact ⟨mem_values.mpr husable.has, husable, hlists⟩
  obtain ⟨ch, hch, hmax⟩ := all.exists_max_image ChannelEntry.priority ⟨first, hmem _ hfirst hlists⟩
  obtain ⟨-, husable, hch'⟩ := Finset.mem_filter.mp hch
  exact ⟨ch, husable, hch', fun other hother hother' => hmax other (hmem other hother hother')⟩

lemma selects_of_exact (h : Exact index skipIds group model) :
    Selects index skipIds group model ch ↔ Top index skipIds group model ch := by
  simp [Selects, h]

lemma selects_of_not_exact (h : ¬ Exact index skipIds group model) :
    Selects index skipIds group model ch ↔ Usable index skipIds ch ∧ Wild group model ch := by
  simp [Selects, h]

lemma chooses_of_own (hgroup : group ≠ "") (h : Own index group model) :
    Chooses index skipIds group model ch ↔ Drawn index skipIds group model ch := by
  simp [Chooses, hgroup, h]

lemma chooses_of_not_own (hgroup : group ≠ "") (h : ¬ Own index group model) :
    Chooses index skipIds group model ch ↔
      ∃ pattern, Matching model pattern ∧ Drawn index skipIds group pattern ch := by
  simp [Chooses, hgroup, h]

lemma wild_of_drawn (hexact : ¬ Exact index skipIds group model)
    (h : Drawn index skipIds group model ch) : Wild group model ch := by
  have hpattern : isPattern model = true := by
    by_contra hno
    exact hexact ⟨Bool.eq_false_iff.mpr hno, ch, h.usable, h.lists⟩
  exact ⟨model, matching_self hpattern, h.lists⟩

lemma alike_iff :
    (∀ ch, Selects index skipIds group model ch ↔ Chooses index skipIds group model ch) ↔
      Alike index skipIds group model := by
  constructor
  · intro h
    have hblank : group = "" → ¬ Exact index skipIds group model := by
      intro hgroup hexact
      obtain ⟨ch, htop⟩ := exists_top hexact.2
      exact ((h ch).mp (.inl ⟨hexact, htop⟩)).1 hgroup
    refine ⟨fun hgroup => ⟨hblank hgroup, fun ch husable hwild => ?_⟩, ?_, ?_, ?_, ?_⟩
    · exact ((h ch).mp (.inr ⟨hblank hgroup, husable, hwild⟩)).1 hgroup
    · intro hgroup hmodel hexact ch htop
      rw [← chooses_of_own hgroup (own_of_exact hmodel hexact), ← h, selects_of_exact hexact]
      exact htop
    · intro hgroup hmodel hexact ch
      have hown : ¬ Own index group model := fun hown => hown.1 hmodel
      rw [← chooses_of_not_own hgroup hown, ← h, selects_of_exact hexact]
    · intro hgroup hown hexact ch husable hwild
      rw [← chooses_of_own hgroup hown, ← h, selects_of_not_exact hexact]
      exact ⟨husable, hwild⟩
    · intro hgroup hown hexact ch husable hwild
      rw [← chooses_of_not_own hgroup hown, ← h, selects_of_not_exact hexact]
      exact ⟨husable, hwild⟩
  · intro halike ch
    by_cases hgroup : group = ""
    · obtain ⟨hno, hnone⟩ := halike.blankGroup hgroup
      refine iff_of_false ?_ fun h => h.1 hgroup
      rintro (⟨hexact, -⟩ | ⟨-, husable, hwild⟩)
      · exact hno hexact
      · exact hnone ch husable hwild
    by_cases hexact : Exact index skipIds group model
    · rw [selects_of_exact hexact]
      by_cases hmodel : model = ""
      · rw [chooses_of_not_own hgroup fun hown => hown.1 hmodel]
        exact halike.blankModel hgroup hmodel hexact ch
      · rw [chooses_of_own hgroup (own_of_exact hmodel hexact)]
        exact ⟨halike.own hgroup hmodel hexact ch, Drawn.toTop⟩
    · rw [selects_of_not_exact hexact]
      by_cases hown : Own index group model
      · rw [chooses_of_own hgroup hown]
        exact ⟨fun h => halike.spent hgroup hown hexact ch h.1 h.2,
          fun h => ⟨h.usable, wild_of_drawn hexact h⟩⟩
      rw [chooses_of_not_own hgroup hown]
      refine ⟨fun h => halike.tiers hgroup hown hexact ch h.1 h.2, ?_⟩
      rintro ⟨pattern, hmatch, hdrawn⟩
      exact ⟨hdrawn.usable, pattern, hmatch, hdrawn.lists⟩

/-- **When the index mirrors the chooser**, with no cooldowns and positive weights. -/
theorem mirrors_iff (index : ChannelIndex) (now : ℕ) (group model : String) (skipIds : List ℤ)
    (cooldowns : Store) (at' : ℤ) (hquiet : Quiet index now model)
    (hcool : ∀ id, isInCooldown cooldowns at' id model = false)
    (hweights : ∀ id ch, index.get id = some ch → 1 ≤ ch.weight ∧ ch.weight < 2 ^ 32) :
    selectIds index now group model skipIds =
        nextIds index (ask group model skipIds cooldowns at') ↔
      Alike index skipIds group model := by
  rw [← alike_iff, Set.ext_iff]
  simp only [mem_selectIds hquiet, mem_nextIds hweights hcool]
  constructor
  · intro hsame ch
    constructor
    · intro h
      obtain ⟨other, hid, hother⟩ := (hsame ch.id).mp ⟨ch, rfl, h⟩
      rw [← eq_of_usable hother.usable h.usable hid]
      exact hother
    · intro h
      obtain ⟨other, hid, hother⟩ := (hsame ch.id).mpr ⟨ch, rfl, h⟩
      rw [← eq_of_usable hother.usable h.usable hid]
      exact hother
  · intro hall id
    simp only [hall]

def plainChannel (id : ℤ) (models : String) (priority : ℤ) : ChannelEntry where
  id := id
  name := "a"
  provider := "openai"
  models := models
  priority := priority

theorem mirrors_iff_own : let index := ChannelIndex.new.upsert (plainChannel 1 "gpt" 0)
    selectIds index 0 "default" "gpt" [] =
      nextIds index (ask "default" "gpt" [] (fun _ => none) 0) := by
  intro index
  have hvalues : ∀ ch, index.get ch.id = some ch → ch = plainChannel 1 "gpt" 0 := by
    intro ch hget
    have hmem := mem_values.mpr hget
    exact mem_singleton.mp hmem
  have hlists : (plainChannel 1 "gpt" 0).Lists "default" "gpt" := by
    unfold ChannelEntry.Lists
    decide
  have hexact : Exact index [] "default" "gpt" :=
    ⟨by decide, plainChannel 1 "gpt" 0, ⟨by decide, rfl, by simp⟩, hlists⟩
  refine (mirrors_iff index 0 "default" "gpt" [] (fun _ => none) 0 (fun _ => rfl) (fun _ => rfl)
    fun id ch hget => ?_).mpr ⟨?_, ?_, ?_, ?_, ?_⟩
  · have hid := index.keyed id ch hget
    subst hid
    rw [hvalues ch hget]
    decide
  · exact fun h => absurd h (by decide)
  · intro _ _ _ ch htop
    refine ⟨htop, ?_⟩
    rw [hvalues ch htop.usable.has]
    decide
  · exact fun _ h => absurd h (by decide)
  · exact fun _ _ h => absurd hexact h
  · exact fun _ _ h => absurd hexact h

def twoTiers : ChannelIndex :=
  (ChannelIndex.new.upsert (plainChannel 1 "gpt*" 0)).upsert (plainChannel 2 "gpt*" 10)

/-- The index can return the channel of lower priority, the chooser cannot. -/
theorem lower_tier : 1 ∈ selectIds twoTiers 0 "default" "gpt-4" [] ∧
      1 ∉ nextIds twoTiers (ask "default" "gpt-4" [] (fun _ => none) 0) := by
  have hvalues : ∀ ch, twoTiers.get ch.id = some ch →
      ch = plainChannel 2 "gpt*" 10 ∨ ch = plainChannel 1 "gpt*" 0 := by
    intro ch hget
    have hmem := mem_values.mpr hget
    rw [show twoTiers.values = [plainChannel 2 "gpt*" 10, plainChannel 1 "gpt*" 0] by
      decide] at hmem
    simpa using hmem
  have hitems : items "gpt*" = ["gpt*"] := by decide
  have hgroup : "default" ∈ items "default" := by decide
  constructor
  · refine (mem_selectIds fun _ => rfl).mpr ⟨plainChannel 1 "gpt*" 0, rfl, .inr ⟨?_, ?_, ?_⟩⟩
    · rintro ⟨-, ch, husable, -, hlists⟩
      have hmodels : ch.models = "gpt*" := by
        rcases hvalues ch husable.has with rfl | rfl <;> rfl
      rw [hmodels, hitems] at hlists
      exact absurd hlists (by decide)
    · exact ⟨by decide, rfl, by simp⟩
    · refine ⟨"gpt*", ⟨by decide, by decide⟩, hgroup, ?_⟩
      exact mem_cons_self
  · intro hmem
    have hweights : ∀ id ch, twoTiers.get id = some ch → 1 ≤ ch.weight ∧ ch.weight < 2 ^ 32 := by
      intro id ch hget
      have hid := twoTiers.keyed id ch hget
      subst hid
      rcases hvalues ch hget with rfl | rfl <;> decide
    obtain ⟨ch, hid, -, hcases⟩ := (mem_nextIds hweights fun _ => rfl).mp hmem
    obtain ⟨entry, hdrawn⟩ : ∃ entry, Drawn twoTiers [] "default" entry ch := by
      rcases hcases with ⟨-, hdrawn⟩ | ⟨-, pattern, -, hdrawn⟩
      · exact ⟨_, hdrawn⟩
      · exact ⟨_, hdrawn⟩
    -- the channel of higher priority lists whatever this one does
    rcases hvalues ch hdrawn.usable.has with rfl | rfl
    · cases hid
    · have hle := hdrawn.highest (plainChannel 2 "gpt*" 10) ⟨by decide, rfl, by simp⟩
        hdrawn.lists
      exact absurd hle (by decide)

end Tokilake.Gateway
