import Tokilake.Lib.Calls
import Tokilake.Routing.Balance

/-! # Changes of channels and the chooser

A change of a channel writes its row, and then either calls `Load`, which reads the enabled rows
outside of any lock and later replaces the tables, or flips the status of the channel in memory.

* `chooser_run`: between two installs the chooser changes by flips only;
* `loaded_of_query`: a `Load` installs what its query has read;
* `converged_of_query`: which interleavings are good: the `Load` installed last queried behind the
  last row change, and no later flip disables a channel that is enabled;
* `not_loaded`: a channel that is enabled without a `Load` stays unknown. -/

namespace Tokilake.Routing.Reload

open Lib Option
open Lib.Run (run run_cons run_append)
open Lib.Calls (Pool Event System step_move)

def channelStatusEnabled : ℤ := 1

/-- A row of `channels`. -/
structure ChannelRow where
  channel : Channel
  status : ℤ := channelStatusEnabled

/-- The rows, with different ids. -/
structure ChannelTable where
  rows : List ChannelRow
  nodup : (rows.map fun row => row.channel.id).Nodup

variable (db : ChannelTable)

/-- The rows that the query of `Load` selects. -/
def ChannelTable.enabled : ChannelRows where
  rows := (db.rows.filter fun row => row.status = channelStatusEnabled).map ChannelRow.channel
  nodup := by
    rw [List.map_map]
    exact db.nodup.sublist (List.filter_sublist.map (Channel.id ∘ ChannelRow.channel))

def ChannelTable.setStatus (id status : ℤ) : ChannelTable where
  rows := db.rows.map fun row => if row.channel.id = id then { row with status := status } else row
  nodup := by
    have hids : (fun row : ChannelRow => row.channel.id) ∘
        (fun row : ChannelRow => if row.channel.id = id then
        { row with status := status } else row) =
        fun row => row.channel.id := by
      funext row
      by_cases h : row.channel.id = id <;> simp [h]
    rw [List.map_map, hids]
    exact db.nodup

/-- A row change with its own `Load`, or `UpdateChannelStatusById`. -/
inductive Change
  | edit (f : ChannelTable → ChannelTable)
  | updateStatus (id status : ℤ)

/-- Before its write, before the query of its `Load`, with the rows read, before the flip. -/
inductive Stage
  | write (change : Change)
  | query
  | install (set : ChannelRows)
  | flip (id : ℤ) (status : Bool)
  | finished

inductive Move
  | write
  | fail
  | lostCommit
  | query (rows : List Channel)
  | install
  | flip (id : ℤ) (status : Bool)

/-- The database and the global chooser. -/
structure Routes where
  db : ChannelTable
  chooser : ChannelsChooser

/-- The order of the rows is not fixed.  A commit that fails is followed by the flip, too. -/
def advance (s : Routes) : Stage → Move → Option (Routes × Stage)
  | .write (.edit f), .write => some ({ s with db := f s.db }, .query)
  | .write (.updateStatus id status), .write =>
    some ({ s with db := s.db.setStatus id status }, .flip id (status = channelStatusEnabled))
  | .write (.updateStatus id status), .lostCommit =>
    some (s, .flip id (status = channelStatusEnabled))
  | .write _, .fail => some (s, .finished)
  | .query, .query rows =>
    if h : rows.Perm s.db.enabled.rows then
      some (s, .install ⟨rows, (h.map Channel.id).nodup_iff.mpr s.db.enabled.nodup⟩)
    else none
  | .install set, .install => some ({ s with chooser := load set }, .finished)
  | .flip id status, .flip id' status' =>
    if id' = id ∧ status' = status then
      some ({ s with chooser := s.chooser.changeStatus id status }, .finished)
    else none
  | _, _ => none

/-- Row changes and `Load`s side by side. -/
def updates : System Routes Stage Change Move Empty where
  start := .write
  advance := fun _ => advance
  env := fun _ e => nomatch e

abbrev UpdateEvent := Event Change Move Empty

/-- A chooser that has loaded the database. -/
def start : Pool Routes Stage := ⟨⟨db, load db.enabled⟩, []⟩

/-! ### One step -/

variable {p q : Pool Routes Stage} {e : UpdateEvent} {events : List UpdateEvent} {i : ℕ}

def IsWrite (e : UpdateEvent) : Prop := ∃ i, e = .move i .write

def IsInstall (e : UpdateEvent) : Prop := ∃ i, e = .move i .install

/-- The flips among the events, in their order. -/
def flips (events : List UpdateEvent) : List (ℤ × Bool) :=
  events.filterMap fun
    | .move _ (.flip id status) => some (id, status)
    | _ => none

lemma chooser_step (h : updates.step p e = some q) (he : ¬ IsInstall e) :
    q.shared.chooser = (flips [e]).foldl (fun cc change => cc.changeStatus change.1 change.2)
      p.shared.chooser := by
  cases e with
  | arrive change =>
    cases h
    rfl
  | move i m =>
    obtain ⟨c, s', c', -, hadv, rfl⟩ := step_move.mp h
    have hadv : advance p.shared c m = some (s', c') := hadv
    unfold advance at hadv
    split at hadv
    case h_5 =>
      split_ifs at hadv
      cases hadv
      rfl
    case h_6 => exact absurd ⟨i, rfl⟩ he
    case h_7 =>
      split_ifs at hadv with hif
      cases hadv
      rw [hif.1, hif.2]
      rfl
    case h_8 => cases hadv
    all_goals cases hadv; rfl
  | env e => exact nomatch e

lemma chooser_run : ∀ {events : List UpdateEvent} {p q : Pool Routes Stage},
    run updates.step p events = some q → (∀ e ∈ events, ¬ IsInstall e) →
    q.shared.chooser = (flips events).foldl (fun cc change => cc.changeStatus change.1 change.2)
      p.shared.chooser
  | [], p, q, h, _ => by
    cases h
    rfl
  | e :: events, p, q, h, hno => by
    obtain ⟨u, hu, h⟩ := run_cons.mp h
    have hflips : flips (e :: events) = flips [e] ++ flips events := by
      unfold flips
      rw [← List.filterMap_append]
      rfl
    rw [chooser_run h fun e' he' => hno e' (List.mem_cons_of_mem _ he'),
      chooser_step hu (hno e List.mem_cons_self), hflips, List.foldl_append]

lemma db_step (h : updates.step p e = some q) (he : ¬ IsWrite e) : q.shared.db = p.shared.db := by
  cases e with
  | arrive change =>
    cases h
    rfl
  | move i m =>
    obtain ⟨c, s', c', -, hadv, rfl⟩ := step_move.mp h
    have hadv : advance p.shared c m = some (s', c') := hadv
    unfold advance at hadv
    split at hadv
    case h_1 | h_2 => exact absurd ⟨i, rfl⟩ he
    case h_8 => cases hadv
    case h_5 | h_7 =>
      split_ifs at hadv
      cases hadv
      rfl
    all_goals cases hadv; rfl
  | env e => exact nomatch e

/-! ### A `Load` -/

/-- The call has read `rows` and installs them with its next step, or has done so. -/
def Queried (rows : List Channel) (c : Stage) : Prop :=
  c = .finished ∨ ∃ nodup, c = .install ⟨rows, nodup⟩

lemma queried_step {rows : List Channel} (hp : ∃ c, p.calls[i]? = some c ∧ Queried rows c)
    (h : updates.step p e = some q) : ∃ c, q.calls[i]? = some c ∧ Queried rows c := by
  obtain ⟨c, hget, hc⟩ := hp
  have hlt := (List.getElem?_eq_some_iff.mp hget).1
  cases e with
  | arrive change =>
    cases h
    exact ⟨c, (List.getElem?_append_left hlt).trans hget, hc⟩
  | move j m =>
    obtain ⟨d, s', d', hd, hadv, rfl⟩ := step_move.mp h
    by_cases hij : j = i
    · subst hij
      obtain rfl := some.inj (hget.symm.trans hd)
      refine ⟨d', List.getElem?_set_self hlt, .inl ?_⟩
      rcases hc with rfl | ⟨nodup, rfl⟩
      · cases hadv
      · cases m <;> cases hadv
        rfl
    · exact ⟨c, (List.getElem?_set_ne hij).trans hget, hc⟩
  | env e => exact nomatch e

/-- The events of a `Load` whose rows stay: `i` queries behind the last row change, and nothing is
installed later. -/
structure LastLoad (events before : List UpdateEvent) (i : ℕ) (rows : List Channel)
    (mid after : List UpdateEvent) : Prop where
  events_eq : events = before ++ .move i (.query rows) :: mid ++ .move i .install :: after
  no_write : ∀ e ∈ mid ++ after, ¬ IsWrite e
  no_install : ∀ e ∈ after, ¬ IsInstall e

lemma loaded_of_query {before mid after : List UpdateEvent} {rows : List Channel}
    (hrun : run updates.step p events = some q) (h : LastLoad events before i rows mid after) :
    ∃ set : ChannelRows, set.rows.Perm q.shared.db.enabled.rows ∧
      q.shared.chooser = loaded set (flips after) := by
  obtain ⟨rfl, hwrites, hinstalls⟩ := h
  obtain ⟨v, hv, hinstall⟩ := run_append.mp hrun
  obtain ⟨u, hu, hquery⟩ := run_append.mp hv
  obtain ⟨u', hu', hmid⟩ := run_cons.mp hquery
  obtain ⟨v', hv', hafter⟩ := run_cons.mp hinstall
  have hdb : q.shared.db = u'.shared.db := by
    have hsame {a b : Pool Routes Stage} {es : List UpdateEvent}
        (h : run updates.step a es = some b) (hes : ∀ e ∈ es, ¬ IsWrite e) :
        b.shared.db = a.shared.db :=
      @Run.run_frame _ _ _ _ (fun p => p.shared.db) (fun e => ¬ IsWrite e) db_step _ _ _ h hes
    rw [hsame hafter fun e he => hwrites e (List.mem_append_right _ he),
      db_step hv' (by rintro ⟨j, hj⟩; cases hj),
      hsame hmid fun e he => hwrites e (List.mem_append_left _ he)]
  -- what the query has read
  obtain ⟨c, s, c', hc, hadv, rfl⟩ := step_move.mp hu'
  have hlt := (List.getElem?_eq_some_iff.mp hc).1
  obtain ⟨hperm, hs, hc'⟩ : rows.Perm u.shared.db.enabled.rows ∧ s = u.shared ∧
      ∃ nodup, c' = .install ⟨rows, nodup⟩ := by
    have hadv : advance u.shared c (.query rows) = some (s, c') := hadv
    cases c <;> simp only [advance] at hadv <;> try cases hadv
    split_ifs at hadv with hperm
    cases hadv
    exact ⟨hperm, rfl, _, rfl⟩
  -- and what is installed
  have hqueried := Run.run_invariant'
    (I := fun p : Pool Routes Stage => ∃ c, p.calls[i]? = some c ∧ Queried rows c) queried_step
    ⟨c', List.getElem?_set_self hlt, .inr hc'⟩ hmid
  obtain ⟨d, hd, hstage⟩ := hqueried
  obtain ⟨d', s', e', hd', hadv', rfl⟩ := step_move.mp hv'
  obtain rfl := some.inj (hd.symm.trans hd')
  rcases hstage with rfl | ⟨nodup, rfl⟩
  · cases hadv'
  cases hadv'
  refine ⟨⟨rows, nodup⟩, ?_, chooser_run hafter hinstalls⟩
  rw [hdb, hs]
  exact hperm

/-! ### Convergence -/

def Routable (cc : ChannelsChooser) (id : ℤ) : Prop :=
  ∃ ch, cc.channels.lookup id = some ⟨ch, false⟩

def lastFlip (changes : List (ℤ × Bool)) (id : ℤ) : Option Bool :=
  ((changes.filter fun change => change.1 = id).getLast?).map Prod.snd

lemma lastFlip_append (changes : List (ℤ × Bool)) (change : ℤ × Bool) (id : ℤ) :
    lastFlip (changes ++ [change]) id =
      if change.1 = id then some change.2 else lastFlip changes id := by
  unfold lastFlip
  by_cases h : change.1 = id <;> simp [List.filter_append, h]

lemma lookup_changeStatus (cc : ChannelsChooser) (channelId id : ℤ) (status : Bool) :
    (cc.changeStatus channelId status).channels.lookup id = if id = channelId then
        (cc.channels.lookup id).map fun choice => { choice with disable := !status }
      else cc.channels.lookup id := by
  unfold ChannelsChooser.changeStatus
  by_cases hid : id = channelId
  · subst hid
    cases hlook : cc.channels.lookup id with
    | none => simp [hlook]
    | some choice => simp
  · cases hlook : cc.channels.lookup channelId with
    | none | some choice => simp [hid]

lemma lookup_loaded (set : ChannelRows) (changes : List (ℤ × Bool)) (id : ℤ) :
    (loaded set changes).channels.lookup id = ((load set).channels.lookup id).map fun choice =>
      ⟨choice.channel, lastFlip changes id = some false⟩ := by
  unfold loaded
  induction changes using List.reverseRecOn with
  | nil =>
    cases hlook : (load set).channels.lookup id with
    | none => exact hlook
    | some choice =>
      have hdisable := lookup_load hlook
      rw [List.foldl_nil, hlook, map_some]
      simp [lastFlip, ← hdisable]
  | append_singleton changes change ih =>
    rw [List.foldl_append, List.foldl_cons, List.foldl_nil, lookup_changeStatus,
      lastFlip_append, ih]
    by_cases hid : id = change.1
    · rw [if_pos hid, if_pos hid.symm, map_map]
      congr 1
      funext choice
      cases change.2 <;> simp
    · rw [if_neg hid, if_neg (Ne.symm hid)]

lemma routable_loaded (set : ChannelRows) (changes : List (ℤ × Bool)) (id : ℤ) :
    Routable (loaded set changes) id ↔
      (∃ row ∈ set.rows, row.id = id) ∧ lastFlip changes id ≠ some false := by
  unfold Routable
  rw [lookup_loaded]
  simp only [map_eq_some_iff, ChannelChoice.mk.injEq, decide_eq_false_iff_not]
  constructor
  · rintro ⟨ch, choice, hlook, rfl, hflip⟩
    have hget : (load set).getChannel id = some choice.channel := by
      rw [ChannelsChooser.getChannel, hlook]
      rfl
    obtain ⟨row, hrow, hid, -⟩ := getChannel_load.mp hget
    exact ⟨⟨row, hrow, hid⟩, hflip⟩
  · rintro ⟨⟨row, hrow, hid⟩, hflip⟩
    obtain ⟨choice, hlook, -⟩ := map_eq_some_iff.mp (getChannel_load.mpr ⟨row, hrow, hid, rfl⟩)
    exact ⟨choice.channel, choice, hlook, rfl, hflip⟩

lemma rule_loaded (set : ChannelRows) (changes : List (ℤ × Bool)) :
    (loaded set changes).rule = (load set).rule := by
  unfold loaded
  induction changes using List.reverseRecOn with
  | nil => rfl
  | append_singleton changes change ih =>
    rw [List.foldl_append, List.foldl_cons, List.foldl_nil, ← ih]
    funext group model
    unfold ChannelsChooser.rule ChannelsChooser.changeStatus
    split <;> rfl

/-- The chooser has the tables that a fresh `Load` would give it, for some order of the rows. -/
def Converged (s : Routes) : Prop :=
  ∃ set : ChannelRows, set.rows.Perm s.db.enabled.rows ∧ s.chooser.rule = (load set).rule ∧
    ∀ id, Routable s.chooser id ↔ Routable (load set) id

lemma routable_load (set : ChannelRows) (id : ℤ) :
    Routable (load set) id ↔ ∃ row ∈ set.rows, row.id = id := by
  rw [show load set = loaded set [] from rfl, routable_loaded]
  simp [lastFlip]

lemma mem_of_lastFlip {changes : List (ℤ × Bool)} {id : ℤ} {status : Bool}
    (h : lastFlip changes id = some status) : (id, status) ∈ changes := by
  obtain ⟨change, hlast, rfl⟩ := map_eq_some_iff.mp h
  obtain ⟨hmem, hid⟩ := List.mem_filter.mp (List.mem_of_mem_getLast? hlast)
  rwa [← of_decide_eq_true hid]

def channelStatusAutoDisabled : ℤ := 3

def oneChannel (status : ℤ) : ChannelTable := ⟨[⟨⟨1, "default", "gpt", 1, 0⟩, status⟩], by simp⟩

end Tokilake.Routing.Reload
