import Tokilake.Gateway.Control
import Tokilake.Lib.Run

/-! # The locks of a release

`release` looks up an entry and removes it under the guard of the lookup, so `remove` waits for a
lock that the same call holds.  `Control` has what a release is for; here it runs step by step,
among other tasks that take and drop locks and change entries.

* `returns_iff`: a release returns exactly if it finds no entry of its own session;
* `ends_eq_release`: one that returns leaves the maps as `Control` says;
* `release_iff`: it completes exactly if there is nothing to remove;
* `release_hangs`: the release of a registered session waits for itself. -/

namespace Tokilake.Gateway.Release

open Lib.Run Gateway.Control Option

/-! ### Locks and steps -/

structure Args where
  session : ℕ
  info : Option WorkerInfo
  nsShard : String → ℕ
  channelShard : ℤ → ℕ

def Args.ns (r : Args) : String := (r.info.map WorkerInfo.ns).getD ""

def Args.channelId (r : Args) : ℤ := (r.info.map WorkerInfo.channelId).getD 0

inductive Lock
  | ns (shard : ℕ)
  | channel (shard : ℕ)
  | session (id : ℕ)
  deriving DecidableEq

def Args.nsLock (r : Args) : Lock := .ns (r.nsShard r.ns)

def Args.channelLock (r : Args) : Lock := .channel (r.channelShard r.channelId)

inductive Hold
  | free
  | reading
  | writing
  deriving DecidableEq

/-- Before `get`, with the guard of an entry in hand, or at `remove`. -/
inductive Half
  | get
  | compare (holder : ℕ)
  | remove
  deriving DecidableEq

def Half.guarded : Half → Bool
  | .get => false
  | .compare _ | .remove => true

inductive Phase
  | ns (h : Half)
  | channel (h : Half)
  | done
  deriving DecidableEq

structure State where
  byNamespace : Entries String
  byChannelId : Entries ℤ
  others : Lock → Hold := fun _ => .free
  phase : Phase

variable (r : Args)

def Args.second : Phase := if r.channelId ≠ 0 then .channel .get else .done

def start (byNamespace : Entries String) (byChannelId : Entries ℤ) : State where
  byNamespace
  byChannelId
  phase := if r.ns ≠ "" then .ns .get else r.second

variable (s : State)

def guard : Option Lock :=
  match s.phase with
  | .ns h => if h.guarded then some r.nsLock else none
  | .channel h => if h.guarded then some r.channelLock else none
  | .done => none

def requests : Option Lock :=
  match s.phase with
  | .ns .remove => some r.nsLock
  | .channel .remove => some r.channelLock
  | _ => none

def readable (l : Lock) : Bool := s.others l ≠ .writing

def writable (l : Lock) : Bool := s.others l = .free ∧ guard r s ≠ some l

def halfStep {κ : Type} [DecidableEq κ] (s : State) (l : Lock) (entries : Entries κ) (key : κ) :
    Half → Option (Entries κ × Option Half)
  | .get => if readable s l then some (entries, (entries.lookup key).map .compare) else none
  | .compare holder =>
    if readable s (.session holder) then
      some (entries, if holder = r.session then some .remove else none)
    else none
  | .remove => if writable r s l then some (entries.erase key, none) else none

inductive Label
  | next
  | lock (l : Lock) (hold : Hold)
  | setNamespace (ns : String) (holder : Option ℕ)
  | setChannel (channelId : ℤ) (holder : Option ℕ)

def setEntry {κ : Type} [DecidableEq κ] (entries : Entries κ) (key : κ) : Option ℕ → Entries κ
  | some holder => entries.insert key holder
  | none => entries.erase key

def step : Label → Option State
  | .next =>
    match s.phase with
    | .ns h => (halfStep r s r.nsLock s.byNamespace r.ns h).map fun x =>
        { s with byNamespace := x.1, phase := (x.2.map Phase.ns).getD r.second }
    | .channel h => (halfStep r s r.channelLock s.byChannelId r.channelId h).map fun x =>
        { s with byChannelId := x.1, phase := (x.2.map Phase.channel).getD .done }
    | .done => none
  -- the caller holds a read guard of the session
  | .lock l hold =>
    if hold = .writing ∧ (guard r s = some l ∨ l = .session r.session) then none
    else some { s with others := Function.update s.others l hold }
  | .setNamespace ns holder =>
    if holder ≠ some r.session ∧ guard r s ≠ some (.ns (r.nsShard ns)) then
      some { s with byNamespace := setEntry s.byNamespace ns holder }
    else none
  | .setChannel channelId holder =>
    if holder ≠ some r.session ∧ guard r s ≠ some (.channel (r.channelShard channelId)) then
      some { s with byChannelId := setEntry s.byChannelId channelId holder }
    else none

/-! ### What a release should do -/

/-- The call waits for a write lock while it holds a guard of the same shard. -/
def BlocksItself : Prop := ∃ l, requests r s = some l ∧ guard r s = some l

def Gone : Prop :=
  (∀ ns, s.byNamespace.lookup ns ≠ some r.session) ∧
    ∀ channelId, s.byChannelId.lookup channelId ≠ some r.session

def Spared (s t : State) : Prop := ∀ j, j ≠ r.session →
  (∀ ns, t.byNamespace.lookup ns = some j ↔ s.byNamespace.lookup ns = some j) ∧
    ∀ channelId, t.byChannelId.lookup channelId = some j ↔ s.byChannelId.lookup channelId = some j

/-- The call comes to its end in `t`, while the other tasks only drop locks. -/
def Ends (s t : State) : Prop :=
  t.phase = .done ∧ ∃ rest : List Label, (∀ a ∈ rest, a = .next ∨ ∃ l, a = .lock l .free) ∧
    run (step r) s rest = some t

/-- Whatever the other tasks have done, the call does not block itself, and it can come to its end.
-/
def Returns : Prop := ∀ (labels : List Label) (t : State),
  run (step r) s labels = some t → ¬ BlocksItself r t ∧ ∃ u, Ends r t u

/-- The call returns; the entries of the session are gone, those of others as they were. -/
def Completes : Prop := Returns r s ∧ ∀ (labels : List Label) (t u : State),
  run (step r) s labels = some t → Ends r t u → Gone r u ∧ Spared r t u

def Owns : Prop :=
  (r.ns ≠ "" ∧ s.byNamespace.lookup r.ns = some r.session) ∨
    (r.channelId ≠ 0 ∧ s.byChannelId.lookup r.channelId = some r.session)

/-! ### A release that finds its own entry -/

variable {r} {s t u : State} {a : Label}

lemma guard_of_requests {l : Lock} (h : requests r s = some l) : guard r s = some l := by
  unfold requests at h
  unfold guard
  split at h
  case h_3 => cases h
  all_goals
    rename_i hphase
    rw [hphase]
    exact h

lemma stuck_step {l : Lock} (h : requests r s = some l) (ht : step r s a = some t) :
    t.phase = s.phase := by
  have hwritable : writable r s l = false := by simp [writable, guard_of_requests h]
  cases a with
  | next =>
    unfold requests at h
    split at h
    case h_3 => cases h
    all_goals
      rename_i hphase
      cases h
      simp [step, hphase, halfStep, hwritable] at ht
  | lock l hold | setNamespace ns holder | setChannel channelId holder =>
    simp only [step] at ht
    split at ht <;> cases ht
    rfl

lemma stuck_run {l : Lock} {labels : List Label} (h : requests r s = some l)
    (ht : run (step r) s labels = some t) : t.phase = s.phase := by
  have hphase : ∀ {u v : State} {a : Label}, u.phase = s.phase → step r u a = some v →
      v.phase = s.phase := by
    intro u v a hu hv
    have hsame : requests r u = some l := by
      unfold requests at h ⊢
      rw [hu]
      exact h
    exact (stuck_step hsame hv).trans hu
  exact run_invariant' hphase rfl ht

lemma not_ends_of_requests {l : Lock} (h : requests r s = some l) (t : State) : ¬ Ends r s t := by
  rintro ⟨hdone, rest, -, hrun⟩
  rw [stuck_run h hrun] at hdone
  unfold requests at h
  rw [hdone] at h
  cases h

/-! ### A release that has nothing to remove -/

def Half.Foreign (session : ℕ) (h : Half) : Prop := h ≠ .remove ∧ h ≠ .compare session

structure Inv (r : Args) (s : State) : Prop where
  nsFree : r.ns ≠ "" → s.byNamespace.lookup r.ns ≠ some r.session
  channelFree : r.channelId ≠ 0 → s.byChannelId.lookup r.channelId ≠ some r.session
  ns : ∀ h, s.phase = .ns h → r.ns ≠ "" ∧ h.Foreign r.session
  channel : ∀ h, s.phase = .channel h → r.channelId ≠ 0 ∧ h.Foreign r.session

lemma second_eq {phase : Phase} (h : phase = r.second) :
    phase = .done ∨ phase = .channel .get ∧ r.channelId ≠ 0 := by
  subst h
  unfold Args.second
  split_ifs with hchannel
  · exact .inr ⟨rfl, hchannel⟩
  · exact .inl rfl

lemma Inv.second (h : Inv r s) (byNamespace : Entries String)
    (hsame : byNamespace = s.byNamespace) : Inv r { s with byNamespace, phase := r.second } := by
  subst hsame
  refine ⟨h.nsFree, h.channelFree, fun half hphase => ?_, fun half hphase => ?_⟩
  · rcases second_eq (r := r) rfl with hdone | ⟨hchannel, -⟩ <;> simp_all
  · rcases second_eq rfl with hdone | ⟨hchannel, hne⟩
    · rw [hdone] at hphase
      cases hphase
    · rw [hchannel] at hphase
      cases hphase
      exact ⟨hne, nofun, nofun⟩

lemma halfStep_foreign {κ : Type} [DecidableEq κ] {l : Lock} {entries entries' : Entries κ}
    {key : κ} {h : Half} {h' : Option Half} (hkey : entries.lookup key ≠ some r.session)
    (hh : h.Foreign r.session) (hstep : halfStep r s l entries key h = some (entries', h')) :
    entries' = entries ∧ ∀ half ∈ h', half.Foreign r.session := by
  cases h with
  | get =>
    simp only [halfStep] at hstep
    split at hstep <;> cases hstep
    refine ⟨rfl, fun half hhalf => ?_⟩
    obtain ⟨holder, hholder, rfl⟩ := map_eq_some_iff.mp hhalf
    refine ⟨nofun, ?_⟩
    rintro ⟨⟩
    exact hkey hholder
  | compare holder =>
    simp only [halfStep] at hstep
    split at hstep <;> cases hstep
    have hne : holder ≠ r.session := by
      rintro rfl
      exact hh.2 rfl
    simp [hne]
  | remove => exact absurd rfl hh.1

lemma lookup_setEntry_ne {κ : Type} [DecidableEq κ] {entries : Entries κ} {session : ℕ}
    {holder : Option ℕ} (hholder : holder ≠ some session) (changed key : κ)
    (h : entries.lookup key ≠ some session) :
    (setEntry entries changed holder).lookup key ≠ some session := by
  by_cases hkey : key = changed
  · subst hkey
    cases holder with
    | none => simp [setEntry]
    | some j => simpa [setEntry] using hholder
  · cases holder with
    | none => rwa [setEntry, AList.lookup_erase_ne hkey]
    | some j => rwa [setEntry, AList.lookup_insert_ne hkey]

lemma next_step (h : Inv r s) (ht : step r s .next = some t) :
    Inv r t ∧ t.byNamespace = s.byNamespace ∧ t.byChannelId = s.byChannelId := by
  simp only [step] at ht
  split at ht
  · rename_i half hphase
    obtain ⟨hns, hforeign⟩ := h.ns half hphase
    obtain ⟨⟨entries, half'⟩, hstep, rfl⟩ := map_eq_some_iff.mp ht
    obtain ⟨rfl, hforeign'⟩ := halfStep_foreign (h.nsFree hns) hforeign hstep
    refine ⟨?_, rfl, rfl⟩
    cases half' with
    | none => exact h.second _ rfl
    | some half' =>
      refine ⟨h.nsFree, h.channelFree, ?_, nofun⟩
      rintro _ ⟨⟩
      exact ⟨hns, hforeign' half' rfl⟩
  · rename_i half hphase
    obtain ⟨hchannel, hforeign⟩ := h.channel half hphase
    obtain ⟨⟨entries, half'⟩, hstep, rfl⟩ := map_eq_some_iff.mp ht
    obtain ⟨rfl, hforeign'⟩ := halfStep_foreign (h.channelFree hchannel) hforeign hstep
    refine ⟨?_, rfl, rfl⟩
    cases half' with
    | none => exact ⟨h.nsFree, h.channelFree, nofun, nofun⟩
    | some half' =>
      refine ⟨h.nsFree, h.channelFree, nofun, ?_⟩
      rintro _ ⟨⟩
      exact ⟨hchannel, hforeign' half' rfl⟩
  · cases ht

lemma inv_step (h : Inv r s) (ht : step r s a = some t) : Inv r t := by
  cases a with
  | next => exact (next_step h ht).1
  | lock l hold =>
    simp only [step] at ht
    split at ht <;> cases ht
    exact ⟨h.nsFree, h.channelFree, h.ns, h.channel⟩
  | setNamespace ns holder =>
    simp only [step] at ht
    split at ht <;> cases ht
    rename_i hallowed
    refine ⟨fun hns => ?_, h.channelFree, h.ns, h.channel⟩
    exact lookup_setEntry_ne hallowed.1 ns r.ns (h.nsFree hns)
  | setChannel channelId holder =>
    simp only [step] at ht
    split at ht <;> cases ht
    rename_i hallowed
    refine ⟨h.nsFree, fun hchannel => ?_, h.ns, h.channel⟩
    exact lookup_setEntry_ne hallowed.1 channelId r.channelId (h.channelFree hchannel)

lemma Inv.not_blocksItself (h : Inv r s) : ¬ BlocksItself r s := by
  rintro ⟨l, hrequests, -⟩
  unfold requests at hrequests
  split at hrequests
  · rename_i hphase
    exact (h.ns _ hphase).2.1 rfl
  · rename_i hphase
    exact (h.channel _ hphase).2.1 rfl
  · cases hrequests

def Half.needs (l : Lock) : Half → Lock
  | .compare holder => .session holder
  | _ => l

def Half.rank : Half → ℕ
  | .get => 2
  | .compare _ => 1
  | .remove => 0

def Phase.rank : Phase → ℕ
  | .ns h => 4 + h.rank
  | .channel h => 1 + h.rank
  | .done => 0

lemma rank_second : r.second.rank ≤ 3 := by
  unfold Args.second
  split_ifs <;> decide

lemma halfStep_readable {κ : Type} [DecidableEq κ] {l : Lock} (entries : Entries κ) (key : κ)
    {h : Half} (hh : h.Foreign r.session) (hread : readable s (h.needs l) = true) :
    ∃ h', halfStep r s l entries key h = some (entries, h') ∧ ∀ half ∈ h', half.rank < h.rank := by
  cases h with
  | get =>
    refine ⟨_, if_pos hread, fun half hhalf => ?_⟩
    obtain ⟨holder, -, rfl⟩ := map_eq_some_iff.mp hhalf
    exact Nat.one_lt_two
  | compare holder =>
    have hne : holder ≠ r.session := by
      rintro rfl
      exact hh.2 rfl
    refine ⟨none, (if_pos hread).trans ?_, nofun⟩
    rw [if_neg hne]
  | remove => exact absurd rfl hh.1

def State.freed (s : State) (l : Lock) : State :=
  { s with others := Function.update s.others l .free }

lemma readable_freed (s : State) (l : Lock) : readable (s.freed l) l = true := by
  simp [readable, State.freed]

lemma exists_next (h : Inv r s) (hphase : s.phase ≠ .done) :
    ∃ l t, step r (s.freed l) .next = some t ∧ t.phase.rank < s.phase.rank := by
  cases hcase : s.phase with
  | done => exact absurd hcase hphase
  | ns half =>
    let l : Lock := half.needs r.nsLock
    obtain ⟨half', hstep, hrank⟩ := halfStep_readable s.byNamespace r.ns (h.ns half hcase).2
      (readable_freed s l)
    refine ⟨l, { s.freed l with phase := (half'.map Phase.ns).getD r.second }, ?_, ?_⟩
    · have hfreed : (s.freed l).phase = .ns half := hcase
      simp only [step, hfreed]
      exact congrArg (Option.map _) hstep
    · cases half' with
      | none =>
        have hrest : 3 < (Phase.ns half).rank := by
          rw [Phase.rank]
          omega
        exact rank_second.trans_lt hrest
      | some half' =>
        have hlt := hrank half' rfl
        simp only [map_some, getD_some, Phase.rank]
        omega
  | channel half =>
    let l : Lock := half.needs r.channelLock
    obtain ⟨half', hstep, hrank⟩ := halfStep_readable s.byChannelId r.channelId
      (h.channel half hcase).2 (readable_freed s l)
    refine ⟨l, { s.freed l with phase := (half'.map Phase.channel).getD .done }, ?_, ?_⟩
    · have hfreed : (s.freed l).phase = .channel half := hcase
      simp only [step, hfreed]
      exact congrArg (Option.map _) hstep
    · cases half' with
      | none =>
        simp only [Option.map_none, Option.getD_none, Phase.rank]
        omega
      | some half' =>
        have hlt := hrank half' rfl
        simp only [map_some, getD_some, Phase.rank]
        omega

lemma exists_ends (h : Inv r s) : ∃ t, Ends r s t := by
  -- the measure is the number of steps still to come
  induction hn : s.phase.rank using Nat.strong_induction_on generalizing s with
  | _ n ih =>
    by_cases hdone : s.phase = .done
    · exact ⟨s, hdone, [], nofun, rfl⟩
    obtain ⟨l, t, ht, hrank⟩ := exists_next h hdone
    have hfree : step r s (.lock l .free) = some (s.freed l) := by simp [step, State.freed]
    have hinv : Inv r t := inv_step (inv_step h hfree) ht
    obtain ⟨u, hended, rest, hrest, hrun⟩ := ih t.phase.rank (hn ▸ hrank) hinv rfl
    refine ⟨u, hended, .lock l .free :: .next :: rest, ?_, ?_⟩
    · rw [List.forall_mem_cons, List.forall_mem_cons]
      exact ⟨.inr ⟨l, rfl⟩, .inl rfl, hrest⟩
    · exact run_cons.mpr ⟨_, hfree, run_cons.mpr ⟨t, ht, hrun⟩⟩

lemma maps_of_ends (h : Inv r s) (hends : Ends r s t) :
    t.byNamespace = s.byNamespace ∧ t.byChannelId = s.byChannelId := by
  obtain ⟨-, rest, hrest, hrun⟩ := hends
  induction rest generalizing s with
  | nil =>
    cases hrun
    exact ⟨rfl, rfl⟩
  | cons a rest ih =>
    rw [List.forall_mem_cons] at hrest
    obtain ⟨u, hu, hrun⟩ := run_cons.mp hrun
    have hrest' := ih (inv_step h hu) hrest.2 hrun
    have hsame : u.byNamespace = s.byNamespace ∧ u.byChannelId = s.byChannelId := by
      rcases hrest.1 with rfl | ⟨l, rfl⟩
      · exact (next_step h hu).2
      · simp only [step] at hu
        split at hu <;> cases hu
        exact ⟨rfl, rfl⟩
    exact ⟨hrest'.1.trans hsame.1, hrest'.2.trans hsame.2⟩

lemma gone_step (h : Inv r s) (hgone : Gone r s) (ht : step r s a = some t) : Gone r t := by
  cases a with
  | next =>
    obtain ⟨-, hns, hchannel⟩ := next_step h ht
    unfold Gone
    rwa [hns, hchannel]
  | lock l hold =>
    simp only [step] at ht
    split at ht <;> cases ht
    exact hgone
  | setNamespace ns holder =>
    simp only [step] at ht
    split at ht <;> cases ht
    rename_i hallowed
    exact ⟨fun key => lookup_setEntry_ne hallowed.1 ns key (hgone.1 key), hgone.2⟩
  | setChannel channelId holder =>
    simp only [step] at ht
    split at ht <;> cases ht
    rename_i hallowed
    exact ⟨hgone.1, fun key => lookup_setEntry_ne hallowed.1 channelId key (hgone.2 key)⟩

lemma Inv.returns (h : Inv r s) : Returns r s := fun _ _ hrun =>
  have hinv := run_invariant' inv_step h hrun
  ⟨hinv.not_blocksItself, exists_ends hinv⟩

lemma Inv.completes (h : Inv r s) (hgone : Gone r s) : Completes r s := by
  refine ⟨h.returns, fun labels t u hrun hends => ?_⟩
  obtain ⟨hinv, hgone'⟩ : Inv r t ∧ Gone r t := run_invariant' (I := fun s => Inv r s ∧ Gone r s)
    (fun hs ht => ⟨inv_step hs.1 ht, gone_step hs.1 hs.2 ht⟩) ⟨h, hgone⟩ hrun
  obtain ⟨hns, hchannel⟩ := maps_of_ends hinv hends
  unfold Gone Spared
  rw [hns, hchannel]
  exact ⟨hgone', fun j _ => ⟨fun _ => Iff.rfl, fun _ => Iff.rfl⟩⟩

lemma inv_start {byNamespace : Entries String} {byChannelId : Entries ℤ}
    (h : ¬ Owns r (start r byNamespace byChannelId)) : Inv r (start r byNamespace byChannelId) := by
  rw [Owns, not_or, not_and, not_and] at h
  refine ⟨h.1, h.2, fun half hphase => ?_, fun half hphase => ?_⟩
  · unfold start at hphase
    dsimp only at hphase
    split_ifs at hphase with hns
    · cases hphase
      exact ⟨hns, nofun, nofun⟩
    · rcases second_eq hphase.symm with hdone | ⟨hchannel, -⟩
      · cases hdone
      · cases hchannel
  · unfold start at hphase
    dsimp only at hphase
    split_ifs at hphase with hns
    rcases second_eq hphase.symm with hdone | ⟨hchannel, hne⟩
    · cases hdone
    · cases hchannel
      exact ⟨hne, nofun, nofun⟩

/-! ### When a release completes -/

section

variable (byNamespace : Entries String) (byChannelId : Entries ℤ)

def alone (phase : Phase) : State := { byNamespace, byChannelId, phase }

variable {byNamespace byChannelId}

lemma run_ns_own (h : byNamespace.lookup r.ns = some r.session) :
    run (step r) (alone byNamespace byChannelId (.ns .get)) [.next, .next] =
      some (alone byNamespace byChannelId (.ns .remove)) := by
  simp [run, step, halfStep, alone, readable, h]

lemma run_channel_own (h : byChannelId.lookup r.channelId = some r.session) :
    run (step r) (alone byNamespace byChannelId (.channel .get)) [.next, .next] =
      some (alone byNamespace byChannelId (.channel .remove)) := by
  simp [run, step, halfStep, alone, readable, h]

lemma exists_run_second (h : byNamespace.lookup r.ns ≠ some r.session) :
    ∃ labels, run (step r) (alone byNamespace byChannelId (.ns .get)) labels =
      some (alone byNamespace byChannelId r.second) := by
  cases hlookup : byNamespace.lookup r.ns with
  | none => exact ⟨[.next], by simp [run, step, halfStep, alone, readable, hlookup]⟩
  | some holder =>
    have hne : holder ≠ r.session := by
      rintro rfl
      exact h hlookup
    exact ⟨[.next, .next], by simp [run, step, halfStep, alone, readable, hlookup, hne]⟩

lemma exists_requests (h : Owns r (start r byNamespace byChannelId)) : ∃ labels t l,
    run (step r) (start r byNamespace byChannelId) labels = some t ∧ requests r t = some l := by
  have hstart : start r byNamespace byChannelId =
      alone byNamespace byChannelId (if r.ns ≠ "" then .ns .get else r.second) := rfl
  by_cases hns : r.ns ≠ "" ∧ byNamespace.lookup r.ns = some r.session
  · rw [hstart, if_pos hns.1]
    exact ⟨_, _, _, run_ns_own hns.2, rfl⟩
  obtain ⟨hchannel, hown⟩ := h.resolve_left hns
  have hsecond : r.second = .channel .get := if_pos hchannel
  obtain ⟨labels, hrun⟩ : ∃ labels, run (step r) (start r byNamespace byChannelId) labels =
      some (alone byNamespace byChannelId (.channel .get)) := by
    by_cases hempty : r.ns ≠ ""
    · rw [hstart, if_pos hempty, ← hsecond]
      exact exists_run_second fun hlookup => hns ⟨hempty, hlookup⟩
    · exact ⟨[], by rw [hstart, if_neg hempty, hsecond]; rfl⟩
  exact ⟨labels ++ [.next, .next], _, _, run_append.mpr ⟨_, hrun, run_channel_own hown⟩, rfl⟩

lemma returns_iff :
    Returns r (start r byNamespace byChannelId) ↔ ¬ Owns r (start r byNamespace byChannelId) := by
  constructor
  · intro hreturns howns
    obtain ⟨labels, t, l, hrun, hrequests⟩ := exists_requests howns
    obtain ⟨-, u, hends⟩ := hreturns labels t hrun
    exact not_ends_of_requests hrequests u hends
  · exact fun hfree => (inv_start hfree).returns

/-- A release that returns does what the step of `Control` does. -/
lemma ends_eq_release (h : Returns r (start r byNamespace byChannelId))
    (hends : Ends r (start r byNamespace byChannelId) t) :
    t.byNamespace = releaseNamespace byNamespace r.session r.info ∧
      t.byChannelId = releaseChannel byChannelId r.session r.info := by
  have hfree := returns_iff.mp h
  obtain ⟨hns, hchannel⟩ := maps_of_ends (inv_start hfree) hends
  rw [hns, hchannel]
  rw [Owns, not_or, not_and, not_and, Args.ns, Args.channelId] at hfree
  cases hinfo : r.info with
  | none => exact ⟨rfl, rfl⟩
  | some info =>
    rw [hinfo] at hfree
    constructor
    · by_cases hne : info.ns ≠ ""
      · exact ((if_pos hne).trans (if_neg (hfree.1 hne))).symm
      · exact (if_neg hne).symm
    · by_cases hne : info.channelId ≠ 0
      · exact ((if_pos hne).trans (if_neg (hfree.2 hne))).symm
      · exact (if_neg hne).symm

end

/-- **A release completes exactly if it has nothing to remove.** -/
theorem release_iff (r : Args) (byNamespace : Entries String) (byChannelId : Entries ℤ) :
    Completes r (start r byNamespace byChannelId) ↔ Gone r (start r byNamespace byChannelId) := by
  constructor
  · rintro ⟨hreturns, hend⟩
    have hinv := inv_start (returns_iff.mp hreturns)
    obtain ⟨t, hends⟩ := exists_ends hinv
    obtain ⟨hns, hchannel⟩ := maps_of_ends hinv hends
    have hgone := (hend [] _ t rfl hends).1
    unfold Gone at hgone ⊢
    rwa [hns, hchannel] at hgone
  · intro hgone
    refine (inv_start ?_).completes hgone
    rintro (⟨-, hns⟩ | ⟨-, hchannel⟩)
    · exact hgone.1 _ hns
    · exact hgone.2 _ hchannel

def registered : Args where
  session := 1
  info := some ⟨7, 0, "ns", "", [], "", 1⟩
  nsShard := fun _ => 0
  channelShard := fun _ => 0

/-- **The release of a registered session hangs** on the lock that it holds. -/
theorem release_hangs :
    (∃ t, run (step registered) (start registered ((∅ : Entries String).insert "ns" 1) ∅)
        [.next, .next] = some t ∧ BlocksItself registered t ∧
      ∀ labels u, run (step registered) t labels = some u → u.phase = .ns .remove) ∧
    ¬ Completes registered (start registered ((∅ : Entries String).insert "ns" 1) ∅) := by
  have hlookup : ((∅ : Entries String).insert "ns" 1).lookup registered.ns =
      some registered.session := AList.lookup_insert _
  have hrun : run (step registered) (start registered ((∅ : Entries String).insert "ns" 1) ∅)
      [.next, .next] = some (alone ((∅ : Entries String).insert "ns" 1) ∅ (.ns .remove)) :=
    run_ns_own hlookup
  refine ⟨⟨_, hrun, ⟨_, rfl, rfl⟩, fun labels u hu => stuck_run rfl hu⟩, fun hcompletes => ?_⟩
  obtain ⟨-, u, hends⟩ := hcompletes.1 _ _ hrun
  exact not_ends_of_requests rfl u hends

end Tokilake.Gateway.Release
