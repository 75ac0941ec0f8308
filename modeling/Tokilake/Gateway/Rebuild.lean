import Tokilake.Gateway.ChannelIndex
import Tokilake.Routing.Chooser

/-! # The tables of the channel index

`rebuild` makes three tables from the enabled channels, and reads the priorities a second time after
the scan.  A `HashMap` is a partial function; the order in which a loop sees it is an argument.

* `collected`, `tiersOf_spec`: what the tables hold;
* `selected`, `select_first`: what is drawn from tiers. -/

namespace Tokilake.Gateway

open Lib List
open Routing (isPattern matchesPattern)

def items (list : String) : List String := (Text.split ',' list).map Text.trimSpace

abbrev Table (β : Type) := String → String → Option β

@[simp] def Table.push {β : Type} (table : Table (List β)) (group model : String) (x : β) :
    Table (List β) := fun g m =>
  if g = group ∧ m = model then some ((table g m).getD [] ++ [x]) else table g m

structure Tables where
  rule : Table (List (List ℤ)) := fun _ _ => none
  matchPatterns : Table (List ℤ) := fun _ _ => none
  modelGroups : String → Option (List String) := fun _ => none

/-! ### The scan -/

@[simp] def Tables.offer (t : Tables) (ch : ChannelEntry) (group model : String) : Tables where
  rule := if isPattern model then t.rule else t.rule.push group model [ch.id]
  matchPatterns :=
    if isPattern model then t.matchPatterns.push group model ch.id else t.matchPatterns
  modelGroups := fun m =>
    if m = model then some ((t.modelGroups m).getD [] ++ [group]) else t.modelGroups m

def Tables.addChannel (t : Tables) (ch : ChannelEntry) : Tables :=
  if ch.status ≠ 1 then t
  else (items ch.group).foldl (fun t group =>
    (items ch.models).foldl (fun t model => t.offer ch group model) t) t

def collect (order : List ChannelEntry) : Tables := order.foldl Tables.addChannel {}

/-! ### The tiers -/

structure Grouping where
  newTiers : List (List ℤ) := []
  currentPrio : Option ℤ := none
  currentTier : List ℤ := []

def Grouping.closed (g : Grouping) : List (List ℤ) :=
  if g.currentTier = [] then g.newTiers else g.newTiers ++ [g.currentTier]

def Grouping.push (g : Grouping) (entry : ℤ × ℤ) : Grouping :=
  if g.currentPrio ≠ some entry.1 then ⟨g.closed, some entry.1, [entry.2]⟩
  else { g with currentTier := g.currentTier ++ [entry.2] }

variable (entries : List (ℤ × ℤ))

def tiersOf : List (List ℤ) :=
  ((entries.insertionSort fun a b => b.1 ≤ a.1).foldl Grouping.push {}).closed

def priorities (channels : AList fun _ : ℤ => ChannelEntry) (ids : List ℤ) : List (ℤ × ℤ) :=
  ids.filterMap fun id => (channels.lookup id).map fun ch => (ch.priority, id)

def Tables.withTiers (t : Tables) (found : String → String → List (ℤ × ℤ)) : Tables :=
  { t with
    rule := fun group model => (t.rule group model).map fun _ => tiersOf (found group model) }

def ChannelIndex.values (index : ChannelIndex) : List ChannelEntry :=
  index.channels.entries.map Sigma.snd

def Tables.ids (t : Tables) (group model : String) : List ℤ :=
  ((t.rule group model).getD []).flatten

def rebuild (channels : AList fun _ : ℤ => ChannelEntry) (order : List ChannelEntry) : Tables :=
  (collect order).withTiers fun group model => priorities channels ((collect order).ids group model)

/-! ### Queries -/

/-- `patterns` are those of the group, in the order of the loop.  At most one selection draws. -/
def ChannelIndex.selectWithFilter (index : ChannelIndex) (tables : Tables) (patterns : List String)
    (now pick : ℕ) (group model : String) (skipIds : List ℤ) : Option ChannelEntry × ChannelIndex :=
  match selectFromTiers now pick model skipIds index ((tables.rule group model).getD []) with
  | (some ch, index) => (some ch, index)
  | (none, index) =>
    match (patterns.find? (matchesPattern model)).bind (tables.matchPatterns group) with
    | some ids => selectFromTiers now pick model skipIds index [ids]
    | none => (none, index)

/-! ### What the scan collects -/

variable {ch : ChannelEntry} {group model : String} {order : List ChannelEntry}
  {index : ChannelIndex}

lemma mem_values : ch ∈ index.values ↔ index.get ch.id = some ch := by
  unfold ChannelIndex.values ChannelIndex.get
  rw [mem_map]
  constructor
  · rintro ⟨⟨id, c⟩, hmem, rfl⟩
    have hlook := AList.mem_lookup_iff.mpr hmem
    rw [index.keyed id c hlook]
    exact hlook
  · intro h
    exact ⟨⟨ch.id, ch⟩, AList.mem_lookup_iff.mp h, rfl⟩

def ChannelEntry.Lists (ch : ChannelEntry) (group model : String) : Prop :=
  group ∈ items ch.group ∧ model ∈ items ch.models

def ChannelEntry.offered (ch : ChannelEntry) : List (ChannelEntry × String × String) :=
  if ch.status ≠ 1 then []
  else (items ch.group).flatMap fun group => (items ch.models).map fun model => (ch, group, model)

lemma mem_offered {c : ChannelEntry} :
    (c, group, model) ∈ ch.offered ↔ c = ch ∧ ch.status = 1 ∧ ch.Lists group model := by
  unfold ChannelEntry.offered
  by_cases hstatus : ch.status = 1
  · rw [if_neg (not_not.mpr hstatus)]
    simp only [mem_flatMap, mem_map, Prod.mk.injEq, ChannelEntry.Lists]
    constructor
    · rintro ⟨g, hg, m, hm, rfl, rfl, rfl⟩
      exact ⟨rfl, hstatus, hg, hm⟩
    · rintro ⟨rfl, -, hg, hm⟩
      exact ⟨group, hg, model, hm, rfl, rfl, rfl⟩
  · rw [if_pos hstatus]
    simp [hstatus]

variable (order)

lemma collect_eq : collect order = (order.flatMap ChannelEntry.offered).foldl
      (fun t o => t.offer o.1 o.2.1 o.2.2) {} := by
  have hadd : ∀ (t : Tables) (ch : ChannelEntry),
      t.addChannel ch = ch.offered.foldl (fun t o => t.offer o.1 o.2.1 o.2.2) t := by
    intro t ch
    unfold Tables.addChannel ChannelEntry.offered
    by_cases hstatus : ch.status = 1
    · rw [if_neg (not_not.mpr hstatus), if_neg (not_not.mpr hstatus), foldl_flatMap]
      simp only [foldl_map]
    · rw [if_pos hstatus, if_pos hstatus]
      rfl
  rw [collect, foldl_flatMap]
  congr 1
  funext t ch
  exact hadd t ch

def hits (seen : List (ChannelEntry × String × String)) (group model : String) : List ℤ :=
  (seen.filter fun o => o.2 = (group, model)).map fun o => o.1.id

def entryOf {β : Type} (l : List β) : Option (List β) := if l = [] then none else some l

@[simp] lemma entryOf_getD {β : Type} (l : List β) : (entryOf l).getD [] = l := by
  unfold entryOf
  split_ifs with h
  · exact h.symm
  · rfl

@[simp] lemma entryOf_append {β : Type} (l : List β) (x : β) :
    entryOf (l ++ [x]) = some (l ++ [x]) := if_neg (by simp)

structure Collected (t : Tables) (seen : List (ChannelEntry × String × String)) : Prop where
  rule : ∀ group model, t.rule group model =
    entryOf (if isPattern model then [] else (hits seen group model).map ([·]))
  matchPatterns : ∀ group model, t.matchPatterns group model =
    entryOf (if isPattern model then hits seen group model else [])

lemma hits_append (seen : List (ChannelEntry × String × String)) (g m : String) :
    hits (seen ++ [(ch, g, m)]) group model =
      hits seen group model ++ if group = g ∧ model = m then [ch.id] else [] := by
  unfold hits
  by_cases hkey : group = g ∧ model = m
  · obtain ⟨rfl, rfl⟩ := hkey
    simp
  · have hne : ¬ (g = group ∧ m = model) := fun h => hkey ⟨h.1.symm, h.2.symm⟩
    simp [hkey, hne]

lemma collected_offer {t : Tables} {seen : List (ChannelEntry × String × String)}
    (h : Collected t seen) (ch : ChannelEntry) (g m : String) :
    Collected (t.offer ch g m) (seen ++ [(ch, g, m)]) := by
  constructor
  · intro group model
    rw [hits_append]
    by_cases hkey : group = g ∧ model = m
    · obtain ⟨rfl, rfl⟩ := hkey
      by_cases hm : isPattern model = true
      · simp [hm, h.rule]
      · simp [hm, h.rule]
    · rw [if_neg hkey, append_nil, ← h.rule]
      by_cases hm : isPattern m = true
      · simp [hm]
      · simp [hm, hkey]
  · intro group model
    rw [hits_append]
    by_cases hkey : group = g ∧ model = m
    · obtain ⟨rfl, rfl⟩ := hkey
      by_cases hm : isPattern model = true
      · simp [hm, h.matchPatterns]
      · simp [hm, h.matchPatterns]
    · rw [if_neg hkey, append_nil, ← h.matchPatterns]
      by_cases hm : isPattern m = true
      · simp [hm, hkey]
      · simp [hm]

lemma collected_foldl (offers : List (ChannelEntry × String × String)) :
    Collected (offers.foldl (fun t o => t.offer o.1 o.2.1 o.2.2) {}) offers := by
  induction offers using reverseRecOn with
  | nil => exact ⟨fun _ _ => by simp [hits, entryOf], fun _ _ => by simp [hits, entryOf]⟩
  | append_singleton offers o ih =>
    rw [foldl_append]
    exact collected_offer ih o.1 o.2.1 o.2.2

def idsFor (group model : String) : List ℤ := hits (order.flatMap ChannelEntry.offered) group model

lemma collected : Collected (collect order) (order.flatMap ChannelEntry.offered) := by
  rw [collect_eq]
  exact collected_foldl _

lemma ids_collect (group model : String) :
    (collect order).ids group model = if isPattern model then [] else idsFor order group model := by
  rw [Tables.ids, (collected order).rule, entryOf_getD]
  by_cases hm : isPattern model = true
  · simp [hm]
  · rw [if_neg hm, if_neg hm, ← flatMap_def, flatMap_singleton']
    rfl

variable {order}

variable {id last : ℤ}

lemma mem_idsFor : id ∈ idsFor order group model ↔
    ∃ ch ∈ order, ch.status = 1 ∧ ch.Lists group model ∧ ch.id = id := by
  simp only [idsFor, hits, mem_map, mem_filter, mem_flatMap, decide_eq_true_eq]
  constructor
  · rintro ⟨⟨c, g, m⟩, ⟨⟨ch, hch, hmem⟩, heq⟩, rfl⟩
    cases heq
    obtain ⟨rfl, hstatus, hlists⟩ := mem_offered.mp hmem
    exact ⟨c, hch, hstatus, hlists, rfl⟩
  · rintro ⟨ch, hch, hstatus, hlists, rfl⟩
    exact ⟨(ch, group, model), ⟨⟨ch, hch, mem_offered.mpr ⟨rfl, hstatus, hlists⟩⟩, rfl⟩, rfl⟩

lemma idsFor_cons (order : List ChannelEntry) (hstatus : ch.status = 1)
    (hlists : ch.Lists group model) :
    ∃ rest, idsFor (ch :: order) group model = ch.id :: rest := by
  have hmem := mem_offered.mpr ⟨rfl, hstatus, hlists⟩
  unfold idsFor hits
  rw [flatMap_cons, filter_append, map_append]
  cases hfilter : ch.offered.filter fun o => o.2 = (group, model) with
  | nil =>
    have hno := filter_eq_nil_iff.mp hfilter _ hmem
    simp at hno
  | cons o rest =>
    have ho := mem_of_mem_filter (hfilter ▸ mem_cons_self)
    obtain ⟨heq, -⟩ := mem_offered.mp (show (o.1, o.2.1, o.2.2) ∈ ch.offered from ho)
    rw [map_cons, heq]
    exact ⟨_, rfl⟩

/-! ### The tiers by priority -/

def tierAt (priority : ℤ) : List ℤ := (entries.filter fun e => e.1 = priority).map Prod.snd

structure Grouped (entries : List (ℤ × ℤ)) (higher : List ℤ) (last : ℤ) (g : Grouping) : Prop where
  sorted : (higher ++ [last]).Pairwise (· > ·)
  complete : ∀ p, p ∈ higher ++ [last] ↔ ∃ e ∈ entries, e.1 = p
  newTiers : g.newTiers = higher.map (tierAt entries)
  currentPrio : g.currentPrio = some last
  currentTier : g.currentTier = tierAt entries last

lemma tierAt_append (e : ℤ × ℤ) (priority : ℤ) : tierAt (entries ++ [e]) priority =
      tierAt entries priority ++ if e.1 = priority then [e.2] else [] := by
  unfold tierAt
  by_cases h : e.1 = priority <;> simp [h]

variable {entries : List (ℤ × ℤ)}

lemma tierAt_ne_nil {priority : ℤ} :
    tierAt entries priority ≠ [] ↔ ∃ e ∈ entries, e.1 = priority := by
  simp [tierAt, filter_eq_nil_iff]

variable {higher : List ℤ}

variable {g : Grouping}

lemma Grouped.closed_eq (h : Grouped entries higher last g) :
    g.closed = (higher ++ [last]).map (tierAt entries) := by
  have hne : g.currentTier ≠ [] := by
    rw [h.currentTier, tierAt_ne_nil]
    exact (h.complete last).mp (by simp)
  rw [Grouping.closed, if_neg hne, h.newTiers, h.currentTier, map_append]
  rfl

lemma Grouped.gt (h : Grouped entries higher last g) : ∀ p ∈ higher, p > last := fun p hp =>
  (pairwise_append.mp h.sorted).2.2 p hp last mem_cons_self

lemma Grouped.ge (h : Grouped entries higher last g) : ∀ p ∈ higher ++ [last], p ≥ last := by
  intro p hp
  rcases mem_append.mp hp with hp | hp
  · exact (h.gt p hp).le
  · exact (mem_singleton.mp hp).ge

lemma grouped_grow (h : Grouped entries higher last g)
    (e : ℤ × ℤ) (hlast : e.1 = last) : Grouped (entries ++ [e]) higher last (g.push e) := by
  have hhigher : higher.map (tierAt (entries ++ [e])) = higher.map (tierAt entries) := by
    refine map_congr_left fun p hp => ?_
    have hgt := h.gt p hp
    rw [tierAt_append, if_neg (by omega), append_nil]
  refine ⟨h.sorted, fun p => ?_, ?_, ?_, ?_⟩
  · rw [h.complete]
    constructor
    · rintro ⟨e', he', rfl⟩
      exact ⟨e', by simp [he'], rfl⟩
    · rintro ⟨e', he', rfl⟩
      rcases mem_append.mp he' with he' | he'
      · exact ⟨e', he', rfl⟩
      · rw [mem_singleton.mp he', hlast]
        exact (h.complete last).mp (by simp)
  all_goals rw [Grouping.push, if_neg (by rw [h.currentPrio, hlast]; simp)]
  · rw [hhigher]
    exact h.newTiers
  · exact h.currentPrio
  · rw [tierAt_append, if_pos hlast]
    exact congrArg (· ++ [e.2]) h.currentTier

lemma grouped_begin (h : Grouped entries higher last g)
    (e : ℤ × ℤ) (hlt : e.1 < last) :
    Grouped (entries ++ [e]) (higher ++ [last]) e.1 (g.push e) := by
  have hall : (higher ++ [last]).map (tierAt (entries ++ [e])) =
      (higher ++ [last]).map (tierAt entries) := by
    refine map_congr_left fun p hp => ?_
    have hge := h.ge p hp
    rw [tierAt_append, if_neg (by omega), append_nil]
  have hnone : tierAt entries e.1 = [] := by
    by_contra hne
    have hge := h.ge e.1 ((h.complete e.1).mpr (tierAt_ne_nil.mp hne))
    omega
  refine ⟨?_, fun p => ?_, ?_, ?_, ?_⟩
  · rw [pairwise_append]
    refine ⟨h.sorted, pairwise_singleton _ _, fun p hp q hq => ?_⟩
    have hge := h.ge p hp
    rw [mem_singleton.mp hq]
    omega
  · rw [mem_append, h.complete]
    simp only [mem_append, mem_singleton, or_and_right, exists_or, exists_eq_left]
    rw [eq_comm]
  all_goals rw [Grouping.push, if_pos (by rw [h.currentPrio]; simpa using hlt.ne')]
  · rw [hall]
    exact h.closed_eq
  · rw [tierAt_append, if_pos rfl, hnone]
    rfl

lemma grouped_push (h : Grouped entries higher last g)
    (e : ℤ × ℤ) (hle : e.1 ≤ last) :
    ∃ higher' last', Grouped (entries ++ [e]) higher' last' (g.push e) := by
  rcases hle.eq_or_lt with hlast | hlt
  · exact ⟨higher, last, grouped_grow h e hlast⟩
  · exact ⟨higher ++ [last], e.1, grouped_begin h e hlt⟩

lemma grouped_foldl (hsorted : entries.Pairwise fun a b => b.1 ≤ a.1) :
    entries = [] ∨ ∃ higher last, Grouped entries higher last (entries.foldl Grouping.push {}) := by
  induction entries using reverseRecOn with
  | nil => exact .inl rfl
  | append_singleton entries e ih =>
    obtain ⟨hentries, -, hle⟩ := pairwise_append.mp hsorted
    right
    rw [foldl_append]
    rcases ih hentries with rfl | ⟨higher, last, hgrouped⟩
    · exact ⟨[], e.1, by simp, by simp [eq_comm], rfl, rfl, by simp [tierAt, Grouping.push]⟩
    · -- the last tier has an entry, which is not below the new one
      obtain ⟨e', he', heq⟩ := (hgrouped.complete last).mp (by simp)
      exact grouped_push hgrouped e (heq ▸ hle e' he' e mem_cons_self)

lemma tierAt_insertionSort (entries : List (ℤ × ℤ)) (p : ℤ) :
    tierAt (entries.insertionSort fun a b => b.1 ≤ a.1) p = tierAt entries p := by
  have hpairwise : (entries.filter fun e => e.1 = p).Pairwise fun a b => b.1 ≤ a.1 := by
    refine List.Pairwise.imp_of_mem (fun {a b} ha hb _ => ?_)
      (pairwise_of_forall fun _ _ => trivial)
    have ha' := of_decide_eq_true (mem_filter.mp ha).2
    have hb' := of_decide_eq_true (mem_filter.mp hb).2
    omega
  have hsub := (sublist_insertionSort hpairwise filter_sublist).filter fun e => e.1 = p
  rw [filter_filter] at hsub
  simp only [Bool.and_self] at hsub
  have hperm := (perm_insertionSort (fun a b : ℤ × ℤ => b.1 ≤ a.1) entries).filter
    fun e => e.1 = p
  unfold tierAt
  rw [hsub.eq_of_length hperm.length_eq.symm]

lemma tiersOf_spec (entries : List (ℤ × ℤ)) :
    ∃ ps : List ℤ, ps.Pairwise (· > ·) ∧ (∀ p, p ∈ ps ↔ ∃ e ∈ entries, e.1 = p) ∧
      tiersOf entries = ps.map (tierAt entries) := by
  have hmem : ∀ e, e ∈ entries.insertionSort (fun a b => b.1 ≤ a.1) ↔ e ∈ entries := fun e =>
    (perm_insertionSort _ entries).mem_iff
  rw [tiersOf]
  rcases grouped_foldl (pairwise_insertionSort (fun a b : ℤ × ℤ => b.1 ≤ a.1) entries) with
    hnil | ⟨higher, last, hgrouped⟩
  · have hentries : entries = [] := by
      rw [eq_nil_iff_forall_not_mem]
      intro e he
      have he' := (hmem e).mpr he
      rw [hnil] at he'
      cases he'
    refine ⟨[], List.Pairwise.nil, by simp [hentries], ?_⟩
    rw [hnil]
    rfl
  · refine ⟨higher ++ [last], hgrouped.sorted, fun p => ?_, ?_⟩
    · rw [hgrouped.complete]
      simp only [hmem]
    · rw [hgrouped.closed_eq]
      exact map_congr_left fun p _ => tierAt_insertionSort entries p

/-! ### What is selected -/

variable {now pick : ℕ} {skipIds tier : List ℤ} {tiers : List (List ℤ)}

def Quiet (index : ChannelIndex) (now : ℕ) (model : String) : Prop :=
  ∀ id, index.cooling now id model = false

structure Usable (index : ChannelIndex) (skipIds : List ℤ) (ch : ChannelEntry) : Prop where
  has : index.get ch.id = some ch
  enabled : ch.status = 1
  kept : ch.id ∉ skipIds

lemma quiet_clearCooldown (h : Quiet index now model) (id : ℤ) (m : String) :
    Quiet (index.clearCooldown id m) now model := by
  intro other
  have hother := h other
  unfold ChannelIndex.cooling ChannelIndex.clearCooldown at *
  by_cases hkey : cooldownKey other model = cooldownKey id m
  · rw [hkey, AList.lookup_erase]
  · rw [AList.lookup_erase_ne hkey]
    exact hother

def eligibleAt (index : ChannelIndex) (skipIds : List ℤ) (id : ℤ) : Option (ℤ × ℕ) :=
  if id ∈ skipIds then none
  else match index.get id with
    | none => none
    | some ch => if ch.status ≠ 1 then none else some (id, max ch.weight 1)

lemma eligibleAt_eq_some {c : ℤ × ℕ} : eligibleAt index skipIds id = some c ↔
    ∃ ch, Usable index skipIds ch ∧ ch.id = id ∧ c = (id, max ch.weight 1) := by
  unfold eligibleAt
  constructor
  · intro h
    by_cases hskip : id ∈ skipIds
    · rw [if_pos hskip] at h
      cases h
    rw [if_neg hskip] at h
    cases hget : index.get id with
    | none => simp [hget] at h
    | some ch =>
      by_cases hstatus : ch.status = 1
      · have hid := index.keyed id ch hget
        subst hid
        simp only [hget, hstatus, ne_eq, not_true_eq_false, if_false, Option.some.injEq] at h
        exact ⟨ch, ⟨hget, hstatus, hskip⟩, rfl, h.symm⟩
      · simp [hget, hstatus] at h
  · rintro ⟨ch, husable, rfl, rfl⟩
    rw [if_neg husable.kept, husable.has]
    simp [husable.enabled]

lemma scan_quiet (tier : List ℤ) : ∀ {index : ChannelIndex}, Quiet index now model →
    Quiet (scan now model skipIds index tier).2 now model ∧
      (scan now model skipIds index tier).1 = tier.filterMap (eligibleAt index skipIds) := by
  induction tier with
  | nil => exact fun h => ⟨h, rfl⟩
  | cons id tier ih =>
    intro index h
    have hclear := ih (quiet_clearCooldown h id model)
    have hsame : eligibleAt (index.clearCooldown id model) skipIds = eligibleAt index skipIds := rfl
    rw [hsame] at hclear
    rw [scan, filterMap_cons]
    by_cases hskip : id ∈ skipIds
    · have hnone : eligibleAt index skipIds id = none := if_pos hskip
      rw [if_pos hskip, hnone]
      exact ih h
    rw [if_neg hskip, if_neg (by rw [h id]; simp)]
    have hget : (index.clearCooldown id model).get id = index.get id := rfl
    rw [eligibleAt, if_neg hskip]
    simp only [hget]
    cases hch : index.get id with
    | none => exact hclear
    | some ch =>
      by_cases hstatus : ch.status = 1
      · simp only [hstatus, ne_eq, not_true_eq_false, if_false, hclear.2]
        exact ⟨hclear.1, trivial⟩
      · simp only [ne_eq, hstatus, not_false_eq_true, if_true]
        exact hclear

def Spent (index : ChannelIndex) (skipIds tier : List ℤ) : Prop :=
  ∀ ch, Usable index skipIds ch → ch.id ∉ tier

lemma scan_eq_nil (h : Quiet index now model) :
    (scan now model skipIds index tier).1 = [] ↔ Spent index skipIds tier := by
  rw [(scan_quiet tier h).2, filterMap_eq_nil_iff]
  constructor
  · intro hnone ch husable hmem
    have hsome := eligibleAt_eq_some.mpr ⟨ch, husable, rfl, rfl⟩
    rw [hnone _ hmem] at hsome
    cases hsome
  · intro hspent id hid
    rw [Option.eq_none_iff_forall_ne_some]
    intro c hc
    obtain ⟨ch, husable, rfl, -⟩ := eligibleAt_eq_some.mp hc
    exact hspent ch husable hid

lemma pickFrom_mem {valid : List (ℤ × ℕ)} (h : pickFrom valid pick = some id) :
    ∃ c ∈ valid, c.1 = id := by
  induction valid generalizing pick with
  | nil => cases h
  | cons c valid ih =>
    rw [pickFrom] at h
    split_ifs at h with hstop
    · exact ⟨c, mem_cons_self, Option.some.inj h⟩
    · obtain ⟨c', hc', heq⟩ := ih h
      exact ⟨c', mem_cons_of_mem _ hc', heq⟩

lemma usable_congr {other : ChannelIndex} (h : other.channels = index.channels) :
    Usable other skipIds ch ↔ Usable index skipIds ch := by
  have hget : other.get ch.id = index.get ch.id := by rw [ChannelIndex.get, h]; rfl
  constructor
  · exact fun hu => ⟨hget ▸ hu.has, hu.enabled, hu.kept⟩
  · exact fun hu => ⟨hget.symm ▸ hu.has, hu.enabled, hu.kept⟩

lemma spent_congr {other : ChannelIndex} (h : other.channels = index.channels) :
    Spent other skipIds tier ↔ Spent index skipIds tier := by
  simp only [Spent, usable_congr h]

structure Selected (index : ChannelIndex) (now : ℕ) (model : String) (skipIds : List ℤ)
    (tiers : List (List ℤ)) (r : Option ChannelEntry × ChannelIndex) : Prop where
  quiet : Quiet r.2 now model
  channels : r.2.channels = index.channels
  outcome : (r.1 = none ∧ ∀ tier ∈ tiers, Spent index skipIds tier) ∨
    ∃ ch before tier after, r.1 = some ch ∧ Usable index skipIds ch ∧ ch.id ∈ tier ∧
      tiers = before ++ tier :: after ∧ ∀ tier ∈ before, Spent index skipIds tier

lemma selected (tiers : List (List ℤ)) : ∀ {index : ChannelIndex}, Quiet index now model →
    Selected index now model skipIds tiers
      (selectFromTiers now pick model skipIds index tiers) := by
  induction tiers with
  | nil => exact fun h => ⟨h, rfl, .inl ⟨rfl, by simp⟩⟩
  | cons tier tiers ih =>
    intro index h
    have hchannels := (scan_spec now model skipIds tier index).channels
    have hquiet : Quiet (scan now model skipIds index tier).2 now model := (scan_quiet tier h).1
    -- a channel of this tier
    have hhere : ∀ c ∈ (scan now model skipIds index tier).1,
        Selected index now model skipIds (tier :: tiers)
          ((scan now model skipIds index tier).2.get c.1,
            (scan now model skipIds index tier).2) := by
      intro c hc
      rw [(scan_quiet tier h).2, mem_filterMap] at hc
      obtain ⟨id, hid, hsome⟩ := hc
      obtain ⟨ch, husable, rfl, rfl⟩ := eligibleAt_eq_some.mp hsome
      refine ⟨hquiet, hchannels, .inr ⟨ch, [], tier, tiers, ?_, husable, hid, rfl, by simp⟩⟩
      rw [← husable.has, ChannelIndex.get, hchannels]
      rfl
    rw [selectFromTiers]
    rcases hvalid : (scan now model skipIds index tier).1 with _ | ⟨c, _ | ⟨d, valid⟩⟩ <;>
      simp only [hvalid]
    · have hspent := (scan_eq_nil h).mp hvalid
      obtain ⟨hq, hc, houtcome⟩ := ih hquiet
      refine ⟨hq, hc.trans hchannels, ?_⟩
      rcases houtcome with ⟨hnone, hall⟩ | ⟨ch, before, t, after, hsome, hu, hid, rfl, hbefore⟩
      · refine .inl ⟨hnone, fun t ht => ?_⟩
        rcases mem_cons.mp ht with rfl | ht
        · exact hspent
        · exact (spent_congr hchannels).mp (hall t ht)
      · refine .inr ⟨ch, tier :: before, t, after, hsome, (usable_congr hchannels).mp hu, hid, rfl,
          fun t' ht' => ?_⟩
        rcases mem_cons.mp ht' with rfl | ht'
        · exact hspent
        · exact (spent_congr hchannels).mp (hbefore t' ht')
    · exact hhere c (by simp [hvalid])
    · cases hpick : pickFrom (c :: d :: valid) pick with
      | none => exact hhere c (by simp [hvalid])
      | some id =>
        obtain ⟨c', hc', rfl⟩ := pickFrom_mem hpick
        exact hhere c' (by rw [hvalid]; exact hc')

lemma select_first (h : Quiet index now model) (before : List (List ℤ)) (rest : List ℤ)
    (after : List (List ℤ)) (hbefore : ∀ tier ∈ before, Spent index skipIds tier)
    (husable : Usable index skipIds ch) :
    (selectFromTiers now 0 model skipIds index (before ++ (ch.id :: rest) :: after)).1 =
      some ch := by
  induction before generalizing index with
  | nil =>
    have hscan : (scan now model skipIds index (ch.id :: rest)).1 =
        (ch.id, max ch.weight 1) :: rest.filterMap (eligibleAt index skipIds) := by
      rw [(scan_quiet _ h).2, filterMap_cons, eligibleAt_eq_some.mpr ⟨ch, husable, rfl, rfl⟩]
    rw [nil_append]
    cases hrest : rest.filterMap (eligibleAt index skipIds) with
    | nil =>
      rw [hrest] at hscan
      rw [select_one hscan]
      exact husable.has
    | cons d valid =>
      rw [hrest] at hscan
      rw [select_many hscan, pickFrom_first (by simp)]
      exact husable.has
  | cons tier before ih =>
    have hchannels := (scan_spec now model skipIds tier index).channels
    have hempty := (scan_eq_nil h).mpr (hbefore tier mem_cons_self)
    rw [cons_append, selectFromTiers]
    simp only [hempty]
    refine ih (scan_quiet tier h).1 (fun t ht => ?_) ((usable_congr hchannels).mpr husable)
    exact (spent_congr hchannels).mpr (hbefore t (mem_cons_of_mem _ ht))

end Tokilake.Gateway
