import Tokilake.Gateway.Rebuild
import Tokilake.Lib.Calls

/-! # Concurrent changes of the channel index

`upsert` and `remove` write to the map of channels and then rebuild the tables, under no common
lock: a rebuild scans the map shard by shard, looks up the priorities of what it has found, and
stores the three tables one after the other.  Orders of scans and sorts are parts of a label.

* `index_run`: behind the last store of a table the map is not written any more, since every writer
  stores each table later;
* `undisturbed_run`: what a call has read while the map is not written is what a rebuild reads;
* `settled_of_undisturbed`: the tables are those of the final map if no write falls between the
  first scan of the call that stores a table last and this store;
* `removed_channel`: a channel that was removed in between comes back. -/

namespace Tokilake.Gateway.Publish

open Lib List
open Lib.Run (run run_cons run_append)
open Lib.Calls (Pool Event System step_move)
open Routing (isPattern)

/-- How a map is cut into shards, each with a lock. -/
structure Sharding where
  count : ℕ
  of : ℤ → ℕ
  lt : ∀ id, of id < count

/-- The three derived tables. -/
inductive Kind
  | rule
  | matchPatterns
  | modelGroups
  deriving DecidableEq

/-- The place of a table in the order of the stores. -/
def Kind.rank : Kind → ℕ
  | .rule => 0
  | .matchPatterns => 1
  | .modelGroups => 2

/-- Stores one of the tables. -/
def put (t new : Tables) : Kind → Tables
  | .rule => { t with rule := new.rule }
  | .matchPatterns => { t with matchPatterns := new.matchPatterns }
  | .modelGroups => { t with modelGroups := new.modelGroups }

def only (t : Tables) (kind : Kind) : Tables := put {} t kind

/-- A call. -/
inductive Op
  | upsert (ch : ChannelEntry)
  | remove (id : ℤ)

/-- Before its write, in the scan, in the second look at the map, or at the next table. -/
inductive Change
  | write (op : Op)
  | scanning (shard : ℕ) (seen : List ChannelEntry)
  | looking (seen : List ChannelEntry) (todo : List (String × String × ℤ))
      (found : String → String → List (ℤ × ℤ))
  | storing (tables : Tables) (next : Kind)
  | returned

/-- One atomic step of a call. -/
inductive Move
  | write
  | scan (part : List ChannelEntry)
  | scanned (keys : List (String × String))
  | look
  | group
  | store (kind : Kind)
  deriving DecidableEq

/-- The channel map and the stored tables. -/
structure SharedIndex where
  index : ChannelIndex
  tables : Tables := {}

def apply (index : ChannelIndex) : Op → ChannelIndex
  | .upsert ch => index.upsert ch
  | .remove id => index.remove id

/-- The pairs whose tiers need priorities. -/
def ruleKeys (seen : List ChannelEntry) : List (String × String) :=
  (((seen.flatMap ChannelEntry.offered).map Prod.snd).filter fun key => !isPattern key.2).dedup

/-- The priorities still to be read, pair by pair. -/
def lookups (seen : List ChannelEntry) (keys : List (String × String)) :
    List (String × String × ℤ) :=
  keys.flatMap fun key => ((collect seen).ids key.1 key.2).map fun id => (key.1, key.2, id)

/-- One priority, read from the map as it is now. -/
def lookOne (channels : AList fun _ : ℤ => ChannelEntry) (found : String → String → List (ℤ × ℤ))
    (group model : String) (id : ℤ) : String → String → List (ℤ × ℤ) := fun g m =>
  if g = group ∧ m = model then found g m ++ priorities channels [id] else found g m

def Change.afterStore (tables : Tables) : Kind → Change
  | .rule => .storing tables .matchPatterns
  | .matchPatterns => .storing tables .modelGroups
  | .modelGroups => .returned

/-- The next step of a call: a shard scanned, a priority looked up, a table stored. -/
def advance (shards : Sharding) (s : SharedIndex) : Change → Move → Option (SharedIndex × Change)
  | .write op, .write => some ({ s with index := apply s.index op }, .scanning 0 [])
  | .scanning shard seen, .scan part =>
    if shard < shards.count ∧
      part.Perm (s.index.values.filter fun ch => shards.of ch.id = shard) then
      some (s, .scanning (shard + 1) (seen ++ part))
    else none
  | .scanning shard seen, .scanned keys =>
    if shard = shards.count ∧ keys.Perm (ruleKeys seen) then
      some (s, .looking seen (lookups seen keys) fun _ _ => [])
    else none
  | .looking seen ((group, model, id) :: todo) found, .look =>
    some (s, .looking seen todo (lookOne s.index.channels found group model id))
  | .looking seen [] found, .group => some (s, .storing ((collect seen).withTiers found) .rule)
  | .storing tables next, .store kind =>
    if kind = next then some ({ s with tables := put s.tables tables kind },
      .afterStore tables kind)
    else none
  | _, _ => none

/-- Any number of calls on one index. -/
def changes (shards : Sharding) : System SharedIndex Change Op Move Empty where
  start := .write
  advance := fun _ => advance shards
  env := fun _ e => nomatch e

abbrev ChangeEvent := Event Op Move Empty

/-- A new index, before any call. -/
def freshPool : Pool SharedIndex Change := ⟨{ index := .new }, []⟩

/-! ### One step -/

variable {shards : Sharding} {s s' : SharedIndex} {c c' : Change} {m : Move}

inductive Advance (shards : Sharding) (s : SharedIndex) : Change → Move →
    SharedIndex → Change → Prop
  | write (op : Op) : Advance shards s (.write op) .write { s with index := apply s.index op }
      (.scanning 0 [])
  | scan {shard seen part} (hlt : shard < shards.count)
      (hpart : part.Perm (s.index.values.filter fun ch => shards.of ch.id = shard)) :
      Advance shards s (.scanning shard seen) (.scan part) s (.scanning (shard + 1) (seen ++ part))
  | scanned {seen keys} (hkeys : keys.Perm (ruleKeys seen)) :
      Advance shards s (.scanning shards.count seen) (.scanned keys) s
        (.looking seen (lookups seen keys) fun _ _ => [])
  | look {seen group model id todo found} :
      Advance shards s (.looking seen ((group, model, id) :: todo) found) .look s
        (.looking seen todo (lookOne s.index.channels found group model id))
  | group {seen found} : Advance shards s (.looking seen [] found) .group s
      (.storing ((collect seen).withTiers found) .rule)
  | store {tables} (kind : Kind) : Advance shards s (.storing tables kind) (.store kind)
      { s with tables := put s.tables tables kind } (.afterStore tables kind)

lemma advance_cases (h : advance shards s c m = some (s', c')) : Advance shards s c m s' c' := by
  unfold advance at h
  split at h
  · cases h
    exact .write _
  · split_ifs at h with hif
    cases h
    exact .scan hif.1 hif.2
  · split_ifs at h with hif
    cases h
    rw [hif.1]
    exact .scanned hif.2
  · cases h
    exact .look
  · cases h
    exact .group
  · split_ifs at h with hif
    cases h
    rw [← hif]
    exact .store _
  · cases h

variable {p q : Pool SharedIndex Change} {e : ChangeEvent} {kind : Kind}

lemma move_cases {i : ℕ} (h : (changes shards).step p (.move i m) = some q) :
    ∃ c s' c', p.calls[i]? = some c ∧ Advance shards p.shared c m s' c' ∧
      q = ⟨s', p.calls.set i c'⟩ := by
  obtain ⟨c, s', c', hc, hadv, hq⟩ := step_move.mp h
  exact ⟨c, s', c', hc, advance_cases hadv, hq⟩

/-! ### What is still to be stored -/

/-- The call has not stored the table yet. -/
def Change.owes (kind : Kind) : Change → Bool
  | .storing _ next => next.rank ≤ kind.rank
  | .returned => false
  | _ => true

/-- Some call has not. -/
def Owes (kind : Kind) (p : Pool SharedIndex Change) : Prop := ∃ c ∈ p.calls, c.owes kind = true

def IsWrite (e : ChangeEvent) : Prop := ∃ i, e = .move i .write

def IsStore (kind : Kind) (e : ChangeEvent) : Prop := ∃ i, e = .move i (.store kind)

lemma owes_advance (h : Advance shards s c m s' c') (hm : m ≠ .store kind)
    (hc : c.owes kind = true) : c'.owes kind = true := by
  cases h with
  | store next => cases next <;> cases kind <;> simp_all [Kind.rank, Change.afterStore, Change.owes]
  | group => exact decide_eq_true (Nat.zero_le kind.rank)
  | _ => rfl

lemma owes_step (hp : Owes kind p) (h : (changes shards).step p e = some q)
    (he : ¬ IsStore kind e) :
    Owes kind q := by
  obtain ⟨c, hmem, hc⟩ := hp
  cases e with
  | arrive op =>
    cases h
    exact ⟨c, mem_append_left _ hmem, hc⟩
  | move i m =>
    obtain ⟨d, s', d', hd, hadv, rfl⟩ := move_cases h
    obtain ⟨j, hj, rfl⟩ := List.getElem_of_mem hmem
    obtain ⟨hi, rfl⟩ := List.getElem?_eq_some_iff.mp hd
    by_cases hij : i = j
    · subst hij
      refine ⟨d', List.mem_set hi _, owes_advance hadv ?_ hc⟩
      rintro rfl
      exact he ⟨i, rfl⟩
    · refine ⟨p.calls[j], ?_, hc⟩
      have hlt : j < (p.calls.set i d').length := by rw [length_set]; exact hj
      have hsame := getElem_set_ne hij hlt
      exact hsame ▸ getElem_mem hlt
  | env e => exact nomatch e

section

variable (h : (changes shards).step p e = some q)
include h

lemma owes_of_write (he : IsWrite e) : Owes kind q := by
  obtain ⟨i, rfl⟩ := he
  obtain ⟨c, s', c', hc, hadv, rfl⟩ := move_cases h
  obtain ⟨hi, -⟩ := List.getElem?_eq_some_iff.mp hc
  refine ⟨c', List.mem_set hi _, ?_⟩
  cases hadv with
  | write op => rfl

lemma index_step (he : ¬ IsWrite e) : q.shared.index = p.shared.index := by
  cases e with
  | arrive op =>
    cases h
    rfl
  | move i m =>
    obtain ⟨c, s', c', -, hadv, rfl⟩ := move_cases h
    cases hadv with
    | write op => exact absurd ⟨i, rfl⟩ he
    | _ => rfl
  | env e => exact nomatch e

lemma only_step (he : ¬ IsStore kind e) :
    only q.shared.tables kind = only p.shared.tables kind := by
  cases e with
  | arrive op =>
    cases h
    rfl
  | move i m =>
    obtain ⟨c, s', c', -, hadv, rfl⟩ := move_cases h
    cases hadv with
    | store next =>
      have hne : next ≠ kind := fun heq => he ⟨i, by rw [heq]⟩
      cases next <;> cases kind <;> first | rfl | exact absurd rfl hne
    | _ => rfl
  | env e => exact nomatch e

end

/-! ### Behind the last store -/

/-- The table is what a rebuild of the map gives, for some order of the channels. -/
def Current (index : ChannelIndex) (tables : Tables) (kind : Kind) : Prop :=
  ∃ order, order.Perm index.values ∧ only tables kind = only (rebuild index.channels order) kind

lemma not_owes_of_returned (h : ∀ c ∈ p.calls, c = .returned) : ¬ Owes kind p := by
  rintro ⟨c, hmem, hc⟩
  rw [h c hmem] at hc
  cases hc

lemma current_fresh : Current ChannelIndex.new {} kind := by
  refine ⟨[], by simp [ChannelIndex.new, ChannelIndex.values], ?_⟩
  cases kind <;> rfl

variable {events : List ChangeEvent}

lemma index_run (h : run (changes shards).step p events = some q)
    (hstores : ∀ e ∈ events, ¬ IsStore kind e) (hq : ¬ Owes kind q) :
    q.shared.index = p.shared.index ∧ only q.shared.tables kind = only p.shared.tables kind := by
  have hwrites : ∀ e ∈ events, ¬ IsWrite e :=
    @Run.no_write_of_paid _ _ _ (Owes kind) IsWrite (IsStore kind) owes_of_write owes_step _ _ _ h
      hstores hq
  constructor
  · exact @Run.run_frame _ _ _ _ (fun p => p.shared.index) (fun e => ¬ IsWrite e) index_step _ _ _ h
      hwrites
  · exact @Run.run_frame _ _ _ _ (fun p => only p.shared.tables kind) (fun e => ¬ IsStore kind e)
      only_step _ _ _ h hstores

/-! ### A call that meets no write -/

/-- The lookups that are left for a list of ids. -/
def todoFor (todo : List (String × String × ℤ)) (group model : String) : List ℤ :=
  (todo.filter fun t => t.1 = group ∧ t.2.1 = model).map fun t => t.2.2

/-- What the call has read so far is what it would read of this map. -/
def Undisturbed (shards : Sharding) (index : ChannelIndex) : Change → Prop
  | .write _ => True
  | .scanning shard seen => seen.Perm (index.values.filter fun ch => shards.of ch.id < shard)
  | .looking seen todo found => seen.Perm index.values ∧ ∀ group model,
      found group model ++ priorities index.channels (todoFor todo group model) =
        priorities index.channels ((collect seen).ids group model)
  | .storing tables _ => ∃ order, order.Perm index.values ∧ tables = rebuild index.channels order
  | .returned => True

variable {seen : List ChannelEntry}

lemma ids_eq_nil {group model : String}
    (h : (group, model) ∉ ruleKeys seen) : (collect seen).ids group model = [] := by
  rw [ids_collect]
  by_cases hmodel : isPattern model = true
  · rw [if_pos hmodel]
  rw [if_neg hmodel, eq_nil_iff_forall_not_mem]
  intro id hid
  obtain ⟨ch, hch, hstatus, hlists, -⟩ := mem_idsFor.mp hid
  refine h (mem_dedup.mpr (mem_filter.mpr ⟨?_, by simpa using hmodel⟩))
  exact mem_map.mpr ⟨(ch, group, model),
    mem_flatMap.mpr ⟨ch, hch, mem_offered.mpr ⟨rfl, hstatus, hlists⟩⟩, rfl⟩

lemma todoFor_lookups_of_nodup {keys : List (String × String)}
    (hnodup : keys.Nodup) (group model : String) : todoFor (lookups seen keys) group model =
      if (group, model) ∈ keys then (collect seen).ids group model else [] := by
  induction keys with
  | nil => rfl
  | cons key keys ih =>
    rw [nodup_cons] at hnodup
    have hrest := ih hnodup.2
    unfold todoFor lookups at hrest ⊢
    rw [flatMap_cons, filter_append, map_append, hrest]
    by_cases hkey : key = (group, model)
    · subst hkey
      rw [if_neg hnodup.1, if_pos mem_cons_self]
      simp [filter_map, Function.comp_def]
    · have hne : ¬ (key.1 = group ∧ key.2 = model) := fun h => hkey (Prod.ext h.1 h.2)
      have hmem : (group, model) ∈ key :: keys ↔ (group, model) ∈ keys := by simp [Ne.symm hkey]
      simp [filter_map, Function.comp_def, hne, hmem]

lemma todoFor_lookups {keys : List (String × String)}
    (hkeys : keys.Perm (ruleKeys seen)) (group model : String) :
    todoFor (lookups seen keys) group model = (collect seen).ids group model := by
  rw [todoFor_lookups_of_nodup (hkeys.nodup_iff.mpr (nodup_dedup _))]
  by_cases hmem : (group, model) ∈ keys
  · rw [if_pos hmem]
  · rw [if_neg hmem, ids_eq_nil fun h => hmem (hkeys.mem_iff.mpr h)]

lemma perm_shards (shards : Sharding) (l : List ChannelEntry) (shard : ℕ) :
    ((l.filter fun ch => shards.of ch.id < shard) ++ l.filter fun ch =>
      shards.of ch.id = shard).Perm
      (l.filter fun ch => shards.of ch.id < shard + 1) := by
  have hsplit := filter_append_perm (fun ch : ChannelEntry => shards.of ch.id < shard)
    (l.filter fun ch => shards.of ch.id < shard + 1)
  have hbelow : ((l.filter fun ch => shards.of ch.id < shard + 1).filter
      fun ch => shards.of ch.id < shard) = l.filter fun ch => shards.of ch.id < shard := by
    rw [filter_filter]
    refine filter_congr fun ch _ => ?_
    rw [← Bool.decide_and, decide_eq_decide]
    omega
  have hhere : ((l.filter fun ch => shards.of ch.id < shard + 1).filter
      fun ch => !decide (shards.of ch.id < shard)) =
        l.filter fun ch => shards.of ch.id = shard := by
    rw [filter_filter]
    refine filter_congr fun ch _ => ?_
    rw [← decide_not, ← Bool.decide_and, decide_eq_decide]
    omega
  rwa [hbelow, hhere] at hsplit

lemma undisturbed_advance (h : Advance shards s c m s' c') (hm : m ≠ .write)
    (hc : Undisturbed shards s.index c) : Undisturbed shards s.index c' := by
  cases h with
  | write op => exact absurd rfl hm
  | @scan shard seen part hlt hpart =>
    exact (List.Perm.append hc hpart).trans (perm_shards shards s.index.values shard)
  | @scanned seen keys hkeys =>
    refine ⟨?_, fun group model => ?_⟩
    · have hall : s.index.values.filter (fun ch => shards.of ch.id < shards.count) =
        s.index.values :=
        filter_eq_self.mpr fun ch _ => decide_eq_true (shards.lt ch.id)
      rw [Undisturbed, hall] at hc
      exact hc
    · rw [nil_append, todoFor_lookups hkeys]
  | @look seen group model id todo found =>
    refine ⟨hc.1, fun g m => ?_⟩
    rw [← hc.2]
    unfold lookOne
    by_cases hkey : g = group ∧ m = model
    · obtain ⟨rfl, rfl⟩ := hkey
      have htodo : todoFor ((g, m, id) :: todo) g m = [id] ++ todoFor todo g m := by simp [todoFor]
      rw [if_pos ⟨rfl, rfl⟩, htodo, append_assoc]
      exact congrArg (found g m ++ ·) filterMap_append.symm
    · have hne : ¬ (group = g ∧ model = m) := fun h => hkey ⟨h.1.symm, h.2.symm⟩
      rw [if_neg hkey]
      simp [todoFor, hne]
  | @group seen found =>
    refine ⟨seen, hc.1, ?_⟩
    have hfound : found = fun group model =>
        priorities s.index.channels ((collect seen).ids group model) := by
      funext g m
      have h := hc.2 g m
      simpa [todoFor, priorities] using h
    rw [hfound]
    rfl
  | store kind =>
    cases kind with
    | modelGroups => trivial
    | _ => exact hc

lemma call_step {P : Change → Prop} {i : ℕ} (hp : ∀ c, p.calls[i]? = some c → P c)
    (hstart : ∀ op, P (.write op))
    (hmove : ∀ {m s' d d'}, e = .move i m → Advance shards p.shared d m s' d' → P d → P d')
    (h : (changes shards).step p e = some q) : ∀ c, q.calls[i]? = some c → P c := by
  intro c hc
  cases e with
  | arrive op =>
    cases h
    rcases Nat.lt_or_ge i p.calls.length with hlt | hge
    · exact hp c ((getElem?_append_left hlt).symm.trans hc)
    · rw [getElem?_append_right hge] at hc
      rw [mem_singleton.mp (mem_of_getElem? hc)]
      exact hstart op
  | move j m =>
    obtain ⟨d, s', d', hd, hadv, rfl⟩ := move_cases h
    by_cases hij : j = i
    · subst hij
      rw [getElem?_set_self (List.getElem?_eq_some_iff.mp hd).1] at hc
      cases hc
      exact hmove rfl hadv (hp d hd)
    · exact hp c ((getElem?_set_ne hij).symm.trans hc)
  | env e => exact nomatch e

lemma undisturbed_step {i : ℕ}
    (hp : ∀ c, p.calls[i]? = some c → Undisturbed shards p.shared.index c)
    (he : ¬ IsWrite e) (h : (changes shards).step p e = some q) :
    ∀ c, q.calls[i]? = some c → Undisturbed shards q.shared.index c := by
  rw [index_step h he]
  refine call_step hp (fun _ => trivial) (fun heq hadv => ?_) h
  exact undisturbed_advance hadv fun hm => he ⟨i, by rw [heq, hm]⟩

lemma undisturbed_run {i : ℕ} (hrun : run (changes shards).step p events = some q)
    (hwrites : ∀ e ∈ events, ¬ IsWrite e)
    (hp : ∀ c, p.calls[i]? = some c → Undisturbed shards p.shared.index c) :
    ∀ c, q.calls[i]? = some c → Undisturbed shards q.shared.index c :=
  Run.run_invariant_forall
    (I := fun p => ∀ c, p.calls[i]? = some c → Undisturbed shards p.shared.index c)
    undisturbed_step hp hwrites hrun

/-- The call has not scanned yet. -/
def Change.Unscanned : Change → Prop
  | .write _ => True
  | .scanning shard seen => shard = 0 ∧ seen = []
  | _ => False

lemma unscanned_step {i : ℕ} (hp : ∀ c, p.calls[i]? = some c → c.Unscanned)
    (he : ∀ part, e ≠ .move i (.scan part)) (h : (changes shards).step p e = some q) :
    ∀ c, q.calls[i]? = some c → c.Unscanned := by
  refine call_step hp (fun _ => trivial) (fun heq hadv hd => ?_) h
  cases hadv with
  | write op => exact ⟨rfl, rfl⟩
  | scan => exact absurd heq (he _)
  | scanned => exact absurd (shards.lt 0) (by rw [hd.1]; exact Nat.not_lt_zero _)
  | _ => exact hd.elim

lemma undisturbed_of_unscanned {index : ChannelIndex} (h : c.Unscanned) :
    Undisturbed shards index c := by
  cases c with
  | write op => trivial
  | scanning shard seen =>
    obtain ⟨rfl, rfl⟩ := h
    simp [Undisturbed]
  | _ => exact h.elim

/-! ### When all calls have returned -/

lemma current_store {i : ℕ} {after : List ChangeEvent} {u v : Pool SharedIndex Change}
    (hcall : ∀ c, u.calls[i]? = some c → Undisturbed shards u.shared.index c)
    (hstep : (changes shards).step u (.move i (.store kind)) = some v)
    (hrun : run (changes shards).step v after = some p) (hafter : ∀ e ∈ after, ¬ IsStore kind e)
    (hp : ¬ Owes kind p) : Current p.shared.index p.shared.tables kind := by
  obtain ⟨hindex, honly⟩ := index_run hrun hafter hp
  obtain ⟨c, s', c', hc, hadv, rfl⟩ := move_cases hstep
  cases hadv with
  | store =>
    obtain ⟨order, horder, rfl⟩ := hcall _ hc
    have hput (t new : Tables) : only (put t new kind) kind = only new kind := by cases kind <;> rfl
    rw [Current, hindex, honly, hput]
    exact ⟨order, horder, rfl⟩

/-- **The tables are those of the map** if no write falls between the first scan of the call that
stores a table last and this store. -/
theorem settled_of_undisturbed (shards : Sharding) (events : List ChangeEvent)
    (p : Pool SharedIndex Change) (hrun : run (changes shards).step freshPool events = some p)
    (hreturned : ∀ c ∈ p.calls, c = .returned)
    (hscan : ∀ kind i before after, events = before ++ .move i (.store kind) :: after →
      (∀ e ∈ after, ¬ IsStore kind e) →
      ∀ earlier w later, before = earlier ++ w :: later → IsWrite w →
        ∀ part, Event.move i (.scan part) ∉ earlier) :
    ∀ kind, Current p.shared.index p.shared.tables kind := by
  intro kind
  have hp : ¬ Owes kind p := not_owes_of_returned hreturned
  rcases Run.cases_last (IsStore kind) events with hnone | ⟨before, _, after, rfl, ⟨i, rfl⟩, hafter⟩
  · obtain ⟨hindex, honly⟩ := index_run hrun hnone hp
    rw [Current, hindex, honly]
    exact current_fresh
  obtain ⟨u, hu, hrest⟩ := run_append.mp hrun
  obtain ⟨v, hstep, hlast⟩ := run_cons.mp hrest
  refine current_store ?_ hstep hlast hafter hp
  have hstart : ∀ c, freshPool.calls[i]? = some c → c.Unscanned := nofun
  rcases Run.cases_last IsWrite before with hnone | ⟨earlier, w, later, rfl, hw, hlater⟩
  · exact undisturbed_run hu hnone fun c hc => undisturbed_of_unscanned (hstart c hc)
  -- the last write before the store comes before the first scan
  have hearlier := hscan kind i _ after rfl hafter earlier w later rfl hw
  rw [append_cons] at hu
  obtain ⟨v, hv, hlater'⟩ := run_append.mp hu
  refine undisturbed_run hlater' hlater fun c hc => undisturbed_of_unscanned ?_
  refine Run.run_invariant_forall
    (I := fun p => ∀ c, p.calls[i]? = some c → c.Unscanned) unscanned_step hstart ?_ hv c hc
  intro e he part hpart
  rcases mem_append.mp he with he | he
  · exact hearlier part (hpart ▸ he)
  · obtain ⟨j, rfl⟩ := hw
    cases (mem_singleton.mp he).symm.trans hpart

/-- All channels in one shard. -/
def oneShard : Sharding := ⟨1, fun _ => 0, fun _ => Nat.one_pos⟩

def someChannel : ChannelEntry where
  id := 1
  name := "a"
  provider := "openai"
  models := "gpt"

/-- The steps of one rebuild, up to the stores. -/
def rebuilding (i : ℕ) (seen : List ChannelEntry) : List ChangeEvent :=
  [.move i (.scan seen), .move i (.scanned (seen.map fun ch => (ch.group, ch.models)))] ++
    seen.map (fun _ => .move i .look) ++ [.move i .group]

def storingAll (i : ℕ) : List ChangeEvent :=
  [.move i (.store .rule), .move i (.store .matchPatterns), .move i (.store .modelGroups)]

def Change.isReturned : Change → Bool
  | .returned => true
  | _ => false

lemma returned_of_all {calls : List Change} (h : calls.all Change.isReturned = true) :
    ∀ c ∈ calls, c = .returned := by
  intro c hc
  have hreturned := all_eq_true.mp h c hc
  cases c <;> first | rfl | cases hreturned

/-- An upsert by itself. -/
def soleCall : List ChangeEvent :=
  .arrive (.upsert someChannel) :: .move 0 .write :: (rebuilding 0 [someChannel] ++ storingAll 0)

theorem settled_alone : ∃ p, run (changes oneShard).step freshPool soleCall = some p ∧
    (∀ c ∈ p.calls, c = .returned) ∧ p.shared.tables.rule "default" "gpt" = some [[1]] ∧
    ∀ kind, Current p.shared.index p.shared.tables kind := by
  have hsome : (run (changes oneShard).step freshPool soleCall).map (fun p =>
      (p.calls.all Change.isReturned, p.shared.tables.rule "default" "gpt")) =
        some (true, some [[1]]) := by
    decide
  obtain ⟨p, hp, heq⟩ := Option.map_eq_some_iff.mp hsome
  rw [Prod.mk.injEq] at heq
  have hreturned := returned_of_all heq.1
  refine ⟨p, hp, hreturned, heq.2, settled_of_undisturbed oneShard soleCall p hp hreturned ?_⟩
  rintro kind i before after hsplit - earlier w later rfl ⟨j, rfl⟩ part hmem
  -- the only write is the second event, and the first is no scan
  rw [append_assoc, cons_append, soleCall] at hsplit
  match earlier with
  | [] => cases hmem
  | [first] =>
    rw [singleton_append, cons.injEq] at hsplit
    cases (mem_singleton.mp hmem).trans hsplit.1.symm
  | first :: second :: mid =>
    rw [cons_append, cons_append, cons.injEq, cons.injEq] at hsplit
    have hwrite : Event.move j .write ∈ rebuilding 0 [someChannel] ++ storingAll 0 := by
      rw [hsplit.2.2]
      simp
    simp [rebuilding, storingAll] at hwrite

/-- A `remove` that runs between the lookups and the stores of an `upsert`. -/
def removedMeanwhile : List ChangeEvent :=
  [.arrive (.upsert someChannel), .arrive (.remove 1), .move 0 .write] ++
    rebuilding 0 [someChannel] ++ [.move 1 .write] ++ rebuilding 1 [] ++
      storingAll 1 ++ storingAll 0

/-- Both calls have returned, the map is empty, and the channel is in the tables. -/
theorem removed_channel : ∃ p, run (changes oneShard).step freshPool removedMeanwhile = some p ∧
    (∀ c ∈ p.calls, c = .returned) ∧ p.shared.index.values = [] ∧
    p.shared.tables.rule "default" "gpt" = some [[1]] ∧
    ¬ Current p.shared.index p.shared.tables .rule := by
  have hsome : (run (changes oneShard).step freshPool removedMeanwhile).map (fun p =>
      (p.calls.all Change.isReturned, p.shared.index.values,
        p.shared.tables.rule "default" "gpt")) = some (true, [], some [[1]]) := by
    decide
  obtain ⟨p, hp, heq⟩ := Option.map_eq_some_iff.mp hsome
  rw [Prod.mk.injEq, Prod.mk.injEq] at heq
  obtain ⟨hcalls, hvalues, hrule⟩ := heq
  refine ⟨p, hp, returned_of_all hcalls, hvalues, hrule, ?_⟩
  rintro ⟨order, horder, honly⟩
  rw [hvalues, perm_nil] at horder
  have hsame := congrArg Tables.rule honly
  have hnone : p.shared.tables.rule "default" "gpt" = none := by
    rw [show p.shared.tables.rule = (rebuild p.shared.index.channels order).rule from hsame, horder]
    rfl
  rw [hnone] at hrule
  cases hrule

end Tokilake.Gateway.Publish
