import Tokilake.Hub.Effects
import Tokilake.Routing.Chooser

/-! # The models of a session and the column of its channel

A session keeps its models as a list, the channel row has them joined by commas, and the chooser
splits the column again.

* `listed_iff`: when session and column agree. -/

namespace Tokilake.Hub.ModelList

open Lib.Run Lib.Table Lib.Text List Option
open Hub.Groups Hub.Registry Hub.Effects
open Routing (names)

/-! ### Normalized names in a column -/

lemma trimSpace_mem_distinct {raw : String} (hblank : trimSpace raw ≠ "") :
    ∀ {seen items : List String}, raw ∈ items →
      trimSpace raw ∈ distinct seen items ∨ trimSpace raw ∈ seen
  | seen, item :: items, h => by
    rw [distinct]
    by_cases hseen : trimSpace raw ∈ seen
    · exact Or.inr hseen
    rcases mem_cons.mp h with rfl | h
    · rw [if_neg (by simp [hblank, hseen])]
      exact Or.inl mem_cons_self
    split_ifs
    · exact trimSpace_mem_distinct hblank h
    rcases trimSpace_mem_distinct hblank h with hrest | hrest
    · exact Or.inl (mem_cons_of_mem _ hrest)
    · rcases mem_cons.mp hrest with heq | hrest
      · exact Or.inl (heq ▸ mem_cons_self)
      · exact absurd hrest hseen

lemma mem_normalizeModels {name : String} {models : List String} :
    name ∈ normalizeModels models ↔ name ≠ "" ∧ ∃ raw ∈ models, name = trimSpace raw := by
  unfold normalizeModels
  rw [mem_sort]
  constructor
  · intro h
    exact (mem_distinct h).2
  · rintro ⟨hblank, raw, hraw, rfl⟩
    exact (trimSpace_mem_distinct hblank hraw).resolve_right not_mem_nil

lemma normalizeModels_ne_nil_iff {models : List String} :
    normalizeModels models ≠ [] ↔ ∃ raw ∈ models, trimSpace raw ≠ "" := by
  constructor
  · intro h
    obtain ⟨name, hname⟩ := exists_mem_of_ne_nil _ h
    obtain ⟨hblank, raw, hraw, rfl⟩ := mem_normalizeModels.mp hname
    exact ⟨raw, hraw, hblank⟩
  · rintro ⟨raw, hraw, hblank⟩
    exact ne_nil_of_mem (mem_normalizeModels.mpr ⟨hblank, raw, hraw, rfl⟩)

lemma sorted_normalizeModels (models : List String) :
    (normalizeModels models).Pairwise (· < ·) := sort_pairwise (nodup_distinct [] models)

def CommaFree (models : List String) : Prop := ∀ name ∈ models, ',' ∉ name.toList

instance (models : List String) : Decidable (CommaFree models) := decidableBAll _ _

lemma commaFree_names (column : String) : CommaFree (names column) := by
  intro name hname hcomma
  obtain ⟨part, hpart, rfl⟩ := mem_map.mp (mem_of_mem_filter hname)
  exact not_mem_of_mem_split hpart (mem_of_mem_trimSpace hcomma)

lemma commaFree_normalizeModels_iff {models : List String} :
    CommaFree (normalizeModels models) ↔ CommaFree models := by
  constructor
  · intro h raw hraw hcomma
    have hkept := mem_trimSpace_of_mem hcomma (by decide)
    refine h (trimSpace raw) (mem_normalizeModels.mpr ⟨fun hblank => ?_, raw, hraw, rfl⟩) hkept
    rw [hblank] at hkept
    exact absurd hkept (by decide)
  · intro h name hname hcomma
    obtain ⟨-, raw, hraw, rfl⟩ := mem_normalizeModels.mp hname
    exact h raw hraw (mem_of_mem_trimSpace hcomma)

lemma names_join_iff {models : List String} (hne : normalizeModels models ≠ []) :
    names (join ',' (normalizeModels models)) = normalizeModels models ↔ CommaFree models := by
  rw [← commaFree_normalizeModels_iff]
  constructor
  · intro h
    rw [← h]
    exact commaFree_names _
  · intro h
    have htrim : (normalizeModels models).map trimSpace = normalizeModels models := by
      refine (map_congr_left fun name hname => ?_).trans (map_id _)
      obtain ⟨-, raw, -, rfl⟩ := mem_normalizeModels.mp hname
      exact trimSpace_trimSpace raw
    rw [names, split_join hne h, htrim, filter_eq_self]
    intro name hname
    exact decide_eq_true (mem_normalizeModels.mp hname).1

/-! ### The calls of a session -/

inductive Call
  | register (dir : Directory) (sql : Sql) (now : ℤ) (msg : RegisterMessage)
  | heartbeat (sql : Sql) (now : ℤ) (msg : HeartbeatMessage)
  | modelsSync (dir : Directory) (sql : Sql) (now : ℤ) (msg : ModelsSyncMessage)

def succeeded {α : Type} : Except RegistryError α × State → Option State
  | (.ok _, hub) => some hub
  | (.error _, _) => none

def step (s : ℕ) (hub : State) : Call → Option State
  | .register dir sql now msg => succeeded (registerWorker dir sql now hub s msg)
  | .heartbeat sql now msg => succeeded (updateHeartbeat sql now hub s msg)
  | .modelsSync dir sql now msg => succeeded (syncModels dir sql now hub s msg)

/-- The names of a session have no gaps or repetitions, and the chooser reads the same from the row.
-/
structure Listed (s : ℕ) (hub : State) : Prop where
  ne_nil : (hub.sessions s).models ≠ []
  sorted : (hub.sessions s).models.Pairwise (· ≤ ·)
  nodup : (hub.sessions s).models.Nodup
  column : ∃ row, hub.db.channel? (hub.sessions s).channelId = some row ∧
    names row.models = (hub.sessions s).models

def Call.Registers : Call → Prop
  | .register .. => True
  | _ => False

def Call.Clean : Call → Prop
  | .register _ _ _ msg => CommaFree msg.models
  | .heartbeat _ _ msg => CommaFree msg.currentModels ∧
      (msg.currentModels = [] ∨ ∃ name ∈ msg.currentModels, trimSpace name ≠ "")
  | .modelsSync _ _ _ msg => CommaFree msg.models

lemma succeeded_eq_some {α : Type} {out : Except RegistryError α × State} {hub : State}
    (h : succeeded out = some hub) : ∃ a, out = (.ok a, hub) := by
  obtain ⟨_ | a, hub'⟩ := out
  · cases h
  · cases h
    exact ⟨a, rfl⟩

/-! ### Channel ids -/

structure Allocated (db : Db) : Prop where
  ids : ∀ row ∈ db.channels, row.id ≠ 0 ∧ row.id < db.nextChannel
  next_pos : 0 < db.nextChannel

section
variable {db db' : Db} {c : ℕ} {row : Channel}

@[simp] lemma channel?_updateNode (w : ℕ) (f : Node → Node) :
    (db.updateNode w f).channel? c = db.channel? c := rfl

@[simp] lemma channel?_setGroups (groups : List UserGroup) :
    (db.setGroups groups).channel? c = db.channel? c := rfl

lemma channel?_congr (h : db'.channels = db.channels) : db'.channel? c = db.channel? c := by
  rw [Db.channel?, Db.channel?, h]

section

variable (h : Allocated db)
include h

lemma Allocated.channel?_zero : db.channel? 0 = none := by
  rcases hrow : db.channel? 0 with _ | row
  · rfl
  · have hmem := mem_of_find?_eq_some (filter_eq_some_iff.mp hrow).1
    exact absurd (id_of_channel? hrow) (h.ids row hmem).1

lemma Allocated.congr (hrows : db'.channels = db.channels)
    (hnext : db'.nextChannel = db.nextChannel) : Allocated db' := by
  refine ⟨?_, ?_⟩
  · rw [hrows, hnext]
    exact h.ids
  · rw [hnext]
    exact h.next_pos

lemma Allocated.updateNode (w : ℕ) (f : Node → Node) :
    Allocated (db.updateNode w f) := h.congr rfl rfl

lemma Allocated.setGroups (groups : List UserGroup) :
    Allocated (db.setGroups groups) := h.congr rfl rfl

lemma Allocated.updateChannel {f : Channel → Channel} (hf : KeepsChannel f) :
    Allocated (db.updateChannel c f) := by
  refine ⟨fun row hrow => ?_, h.next_pos⟩
  rcases mem_updateChannel hrow with hrow | ⟨old, hold, rfl⟩
  · exact h.ids row hrow
  · rw [hf.id]
    exact h.ids old hold

lemma Allocated.createChannel (row : Channel) : Allocated (db.createChannel row) := by
  refine ⟨fun new hnew => ?_, Nat.succ_pos _⟩
  rcases mem_append.mp hnew with hold | hnew
  · have hid := h.ids new hold
    exact ⟨hid.1, Nat.lt_succ_of_lt hid.2⟩
  · rw [mem_singleton.mp hnew]
    exact ⟨h.next_pos.ne', Nat.lt_succ_self _⟩

lemma Allocated.channel?_createChannel (hlive : row.deleted = false) :
    (db.createChannel row).channel? db.nextChannel = some { row with id := db.nextChannel } := by
  have hfresh : ∀ old ∈ db.channels, old.id ≠ db.nextChannel :=
    fun old hold => (h.ids old hold).2.ne
  have hlookup : lookup Channel.id db.nextChannel (db.createChannel row).channels =
      some { row with id := db.nextChannel } :=
    @lookup_insert_self _ Channel.id db.channels { row with id := db.nextChannel } hfresh
  rw [Db.channel?, hlookup]
  simp [hlive]

lemma Allocated.putChannel {now : ℤ} {plan : RegisterResult} {nodeName : String}
    {channel : Option Channel} {mid : Db} {channelId : ℕ}
    (hread : ∀ row, channel = some row → db.channel? row.id = some row)
    (hput : putChannel now plan nodeName db channel = (mid, channelId)) :
    Allocated mid ∧ ∃ row, mid.channel? channelId = some row ∧
      row.models = join ',' plan.models := by
  rcases channel with _ | row
  · obtain ⟨rfl, rfl⟩ := Prod.mk.inj hput
    exact ⟨h.createChannel _, _, h.channel?_createChannel rfl, rfl⟩
  · obtain ⟨rfl, rfl⟩ := Prod.mk.inj hput
    refine ⟨h.updateChannel (keepsChannel_columns plan nodeName),
      channelColumns plan nodeName row, ?_, rfl⟩
    rw [channel?_updateChannel_self (keepsChannel_columns plan nodeName), hread row rfl, map_some]

end

lemma channel?_of_upsertRead {sql : Sql} {userId : ℤ} {plan : RegisterResult} {snap : Snapshot}
    (h : upsertRead sql db userId plan = .ok snap) :
    ∀ row, snap.channel = some row → db.channel? row.id = some row := by
  unfold upsertRead at h
  split at h
  · exact nomatch h
  dsimp only at h
  split at h
  · exact nomatch h
  split at h
  · exact nomatch h
  next channel hload =>
  obtain rfl := Except.ok.inj h
  rintro row rfl
  unfold loadOrCreateTokiameChannel at hload
  split_ifs at hload
  · exact nomatch hload
  split at hload
  · exact nomatch hload
  · have hrow := Except.ok.inj hload
    rwa [id_of_channel? hrow]

end

/-! ### What a call makes of the list -/

section
variable {dir : Directory} {sql : Sql} {now : ℤ} {hub hub' : State} {s : ℕ} {call : Call}
  {calls : List Call}

lemma listed_iff_of_models {models : List String}
    (hsession : (hub.sessions s).models = normalizeModels models)
    (hne : normalizeModels models ≠ [])
    (hrow : ∃ row, hub.db.channel? (hub.sessions s).channelId = some row ∧
      row.models = join ',' (normalizeModels models)) : Listed s hub ↔ CommaFree models := by
  obtain ⟨row, hrow, hcolumn⟩ := hrow
  rw [← names_join_iff hne, ← hcolumn, ← hsession]
  constructor
  · intro h
    obtain ⟨row', hrow', hnames⟩ := h.column
    obtain rfl := some.inj (hrow.symm.trans hrow')
    exact hnames
  · intro h
    have hsorted := sorted_normalizeModels models
    rw [← hsession] at hsorted hne
    exact ⟨hne, hsorted.imp le_of_lt, hsorted.imp ne_of_lt, row, hrow, h⟩

lemma listed_register_iff {msg : RegisterMessage} {result : RegisterResult}
    (hdb : Allocated hub.db) (h : registerWorker dir sql now hub s msg = (.ok result, hub')) :
    Allocated hub'.db ∧ (Listed s hub' ↔ CommaFree msg.models) := by
  obtain ⟨plan, snap, db, ⟨-, -, hplan, hread, hwrite⟩, rfl⟩ := registerWorker_ok h
  obtain ⟨hne, group, -, hplan⟩ := upsertPlan_ok hplan
  obtain ⟨groups, mid, channelId, hput, -, workerId, hnode, hresult⟩ := upsertWrite_ok hwrite
  obtain ⟨hmid, row, hrow, hcolumn⟩ :=
    (hdb.setGroups groups).putChannel (channel?_of_upsertRead hread) hput
  have hmodels : result.models = normalizeModels msg.models := by rw [hresult, hplan]
  have hchannel : result.channelId = channelId := by rw [hresult]
  have hend : ((bindChannel ((hub.setNamespace s (trimSpace msg.ns)).setDb db) s result
      msg.concurrencyLimit).sessions s) = bindSession result msg.concurrencyLimit
        ((hub.setNamespace s (trimSpace msg.ns)).sessions s) := Function.update_self ..
  refine ⟨hmid.congr (putNode_channels hnode).1 (putNode_channels hnode).2, ?_⟩
  refine listed_iff_of_models (by rw [hend]; exact hmodels) hne ⟨row, ?_, ?_⟩
  · rw [hend]
    show db.channel? result.channelId = some row
    rw [hchannel, channel?_congr (putNode_channels hnode).1, hrow]
  · rw [hcolumn, hplan]

lemma channel_of_syncRead {session : Session} {node : Node}
    (h : syncRead sql hub.db session = .ok node) :
    ∃ row, hub.db.channel? session.channelId = some row := by
  unfold syncRead at h
  split at h
  · exact nomatch h
  · exact nomatch h
  · next row _ hrow => exact ⟨row, hrow⟩

lemma listed_sync_iff {msg : ModelsSyncMessage} (hdb : Allocated hub.db)
    (h : syncModels dir sql now hub s msg = (.ok (), hub')) :
    Allocated hub'.db ∧ (Listed s hub' ↔ CommaFree msg.models) := by
  obtain ⟨models, group, node, db, ⟨hplan, hread, hwrite, -⟩, rfl⟩ := syncModels_ok h
  obtain ⟨row, hrow⟩ := channel_of_syncRead hread
  obtain ⟨groups, rfl⟩ := syncWrite_ok hwrite
  have hne : normalizeModels msg.models ≠ [] := by
    intro hnil
    rw [syncPlan, if_pos hnil] at hplan
    cases hplan
  obtain ⟨rfl, -⟩ := syncPlan_ok hplan
  have hkeeps := keepsChannel_sync (hub.sessions s) (normalizeModels msg.models) group
  refine ⟨((hdb.updateNode _ _).setGroups groups).updateChannel hkeeps, ?_⟩
  refine listed_iff_of_models (by simp [syncSession]) hne
    ⟨syncChannel (hub.sessions s) (normalizeModels msg.models) group row, ?_, rfl⟩
  simp only [State.setDb_sessions, State.updateSession_self, State.setDb_db, syncSession]
  rw [channel?_updateChannel_self hkeeps, channel?_setGroups, channel?_updateNode, hrow, map_some]

lemma heartbeatSession_models (session : Session) (msg : HeartbeatMessage) :
    (heartbeatSession msg session).models =
      if msg.currentModels = [] then session.models else normalizeModels msg.currentModels := by
  unfold heartbeatSession heartbeatModels
  by_cases hnil : msg.currentModels = []
  · simp [hnil]
  · by_cases hsame : normalizeModels msg.currentModels = session.models
    · simp [hnil, hsame]
    · simp [hnil, hsame]

lemma heartbeatChannel_models (session : Session) (msg : HeartbeatMessage) (row : Channel) :
    (heartbeatChannel session msg row).models =
      if msg.currentModels = [] ∨ normalizeModels msg.currentModels = session.models then row.models
      else join ',' (normalizeModels msg.currentModels) := by
  unfold heartbeatChannel heartbeatModels
  by_cases hnil : msg.currentModels = []
  · simp [hnil]
  · by_cases hsame : normalizeModels msg.currentModels = session.models
    · simp [hnil, hsame]
    · simp [hnil, hsame]

lemma Listed.of_same (hlisted : Listed s hub)
    (hmodels : (hub'.sessions s).models = (hub.sessions s).models) {row : Channel}
    (hrow : hub'.db.channel? (hub'.sessions s).channelId = some row)
    (hnames : names row.models = (hub.sessions s).models) : Listed s hub' where
  ne_nil := hmodels ▸ hlisted.ne_nil
  sorted := hmodels ▸ hlisted.sorted
  nodup := hmodels ▸ hlisted.nodup
  column := ⟨row, hrow, hmodels ▸ hnames⟩

lemma listed_heartbeat_iff {msg : HeartbeatMessage} (hlisted : Listed s hub)
    (h : updateHeartbeat sql now hub s msg = (.ok (), hub')) :
    Listed s hub' ↔ CommaFree msg.currentModels ∧
      (msg.currentModels = [] ∨ ∃ name ∈ msg.currentModels, trimSpace name ≠ "") := by
  obtain ⟨row, hrow, hnames⟩ := hlisted.column
  have hkeeps := keepsChannel_heartbeat (hub.sessions s) msg
  have hsession : (hub'.sessions s) = heartbeatSession msg (hub.sessions s) := by
    rw [updateHeartbeat_ok h, State.updateSession_self, State.setDb_sessions]
  have hcolumn : hub'.db.channel? (hub'.sessions s).channelId =
      some (heartbeatChannel (hub.sessions s) msg row) := by
    rw [hsession, updateHeartbeat_ok h]
    show (heartbeatDb now hub.db (hub.sessions s) msg).channel? (hub.sessions s).channelId = _
    rw [heartbeatDb, channel?_updateChannel_self hkeeps, channel?_updateNode, hrow, map_some]
  have hmodels := heartbeatSession_models (hub.sessions s) msg
  have htext := heartbeatChannel_models (hub.sessions s) msg row
  rw [← hsession] at hmodels
  split_ifs at hmodels with hnil
  · rw [if_pos (Or.inl hnil)] at htext
    exact iff_of_true (hlisted.of_same hmodels hcolumn (htext ▸ hnames))
      ⟨by simp [hnil, CommaFree], Or.inl hnil⟩
  rw [or_iff_right hnil, ← normalizeModels_ne_nil_iff]
  by_cases hne : normalizeModels msg.currentModels = []
  · exact iff_of_false (fun hend => hend.ne_nil (hmodels.trans hne)) fun hclean => hclean.2 hne
  by_cases hsame : normalizeModels msg.currentModels = (hub.sessions s).models
  · -- the row is not written, and still has the names of the session
    rw [if_pos (Or.inr hsame)] at htext
    have hfree : CommaFree msg.currentModels := by
      rw [← commaFree_normalizeModels_iff, hsame, ← hnames]
      exact commaFree_names row.models
    exact iff_of_true (hlisted.of_same (hmodels.trans hsame) hcolumn (htext ▸ hnames)) ⟨hfree, hne⟩
  · rw [if_neg (by simp [hnil, hsame])] at htext
    rw [listed_iff_of_models hmodels hne ⟨_, hcolumn, htext⟩, and_iff_left hne]

lemma allocated_heartbeat {msg : HeartbeatMessage} (hdb : Allocated hub.db)
    (h : updateHeartbeat sql now hub s msg = (.ok (), hub')) : Allocated hub'.db := by
  rw [updateHeartbeat_ok h]
  exact (hdb.updateNode _ _).updateChannel (keepsChannel_heartbeat _ msg)

/-! ### Sequences of calls -/

lemma step_spec (hdb : Allocated hub.db) (h : step s hub call = some hub') :
    Allocated hub'.db ∧ (Listed s hub → (Listed s hub' ↔ call.Clean)) := by
  cases call with
  | register dir sql now msg =>
    obtain ⟨result, h⟩ := succeeded_eq_some h
    obtain ⟨hdb', hiff⟩ := listed_register_iff hdb h
    exact ⟨hdb', fun _ => hiff⟩
  | heartbeat sql now msg =>
    obtain ⟨⟨⟩, h⟩ := succeeded_eq_some h
    exact ⟨allocated_heartbeat hdb h, fun hlisted => listed_heartbeat_iff hlisted h⟩
  | modelsSync dir sql now msg =>
    obtain ⟨⟨⟩, h⟩ := succeeded_eq_some h
    obtain ⟨hdb', hiff⟩ := listed_sync_iff hdb h
    exact ⟨hdb', fun _ => hiff⟩

lemma listed_first_iff {userId : ℤ} (hdb : Allocated hub.db)
    (hfresh : hub.sessions s = Session.fresh userId) (h : step s hub call = some hub') :
    Listed s hub' ↔ call.Registers ∧ call.Clean := by
  have hzero : (hub.sessions s).channelId = 0 := by rw [hfresh]; rfl
  cases call with
  | register dir sql now msg =>
    obtain ⟨result, h⟩ := succeeded_eq_some h
    exact (listed_register_iff hdb h).2.trans (and_iff_right trivial).symm
  | heartbeat sql now msg =>
    obtain ⟨⟨⟩, h⟩ := succeeded_eq_some h
    refine iff_of_false (fun hlisted => ?_) fun hboth => hboth.1
    obtain ⟨row, hrow, -⟩ := hlisted.column
    have hchannel : (hub'.sessions s).channelId = 0 := by
      rw [updateHeartbeat_ok h, State.updateSession_self]
      exact hzero
    rw [hchannel, (allocated_heartbeat hdb h).channel?_zero] at hrow
    cases hrow
  | modelsSync dir sql now msg =>
    obtain ⟨⟨⟩, h⟩ := succeeded_eq_some h
    obtain ⟨models, group, node, db, ⟨-, hread, -⟩, -⟩ := syncModels_ok h
    obtain ⟨row, hrow⟩ := channel_of_syncRead hread
    rw [hzero, hdb.channel?_zero] at hrow
    cases hrow

/-- **Session and column agree after each call** exactly if no name has a comma or is blank. -/
theorem listed_iff (userId : ℤ) (hdb : Allocated hub.db)
    (hfresh : hub.sessions s = Session.fresh userId)
    (hrun : run (step s) hub (call :: calls) = some hub') :
    (∀ k t, k ≠ 0 → run (step s) hub ((call :: calls).take k) = some t → Listed s t) ↔
      call.Registers ∧ ∀ c ∈ call :: calls, c.Clean := by
  obtain ⟨first, hfirst, hrest⟩ := run_cons.mp hrun
  have hdb' := (step_spec hdb hfirst).1
  have hstays : (∀ k t, k ≠ 0 → run (step s) hub ((call :: calls).take k) = some t → Listed s t) ↔
      Stays (step s) (Listed s) first calls := by
    constructor
    · intro h k t ht
      exact h (k + 1) t (Nat.succ_ne_zero k) (run_cons.mpr ⟨first, hfirst, ht⟩)
    · rintro h (_ | k) t hk ht
      · exact absurd rfl hk
      · obtain ⟨u, hu, ht⟩ := run_cons.mp ht
        obtain rfl := some.inj (hfirst.symm.trans hu)
        exact h k t ht
  have hclean : Listed s first →
      (Stays (step s) (Listed s) first calls ↔ ∀ c ∈ calls, c.Clean) := by
    intro hlisted
    refine stays_iff_forall (J := fun hub => Allocated hub.db) ?_ ?_ hdb' hlisted hrest
    · exact fun hdb h => (step_spec hdb h).1
    · exact fun hdb hlisted h => (step_spec hdb h).2 hlisted
  rw [hstays, forall_mem_cons, ← and_assoc, ← listed_first_iff hdb hfresh hfirst]
  constructor
  · intro h
    have hlisted : Listed s first := h 0 first rfl
    exact ⟨hlisted, (hclean hlisted).mp h⟩
  · rintro ⟨hlisted, hall⟩
    exact (hclean hlisted).mpr hall

end

def emptyHub : State := ⟨⟨[], [], [], 1, 1⟩, fun _ => none, fun _ => none, fun _ => .fresh 7⟩

lemma allocated_emptyHub : Allocated emptyHub.db := ⟨fun _ h => (nomatch h), Nat.one_pos⟩

def registration (models : List String) : Call :=
  .register ⟨fun _ => .ok "default", fun _ => .ok []⟩ .ok 5 ⟨"w", "", "", models, none, "", 0⟩

def beat (models : List String) : Call := .heartbeat .ok 6 ⟨1, "", none, models, 0⟩

/-- Clean names are listed after each call. -/
theorem listed_iff_clean :
    ∃ hub, run (step 0) emptyHub [registration ["b", " a "], beat ["c"]] = some hub ∧ ∀ k t, k ≠ 0 →
        run (step 0) emptyHub ([registration ["b", " a "], beat ["c"]].take k) = some t →
          Listed 0 t := by
  obtain ⟨hub, hrun⟩ := isSome_iff_exists.mp (show
    (run (step 0) emptyHub [registration ["b", " a "], beat ["c"]]).isSome = true by decide)
  refine ⟨hub, hrun, (listed_iff 7 allocated_emptyHub rfl hrun).mpr ⟨trivial, ?_⟩⟩
  rw [forall_mem_cons, forall_mem_singleton]
  exact ⟨show CommaFree ["b", " a "] by decide, show CommaFree ["c"] by decide,
    Or.inr ⟨"c", mem_singleton_self _, by decide⟩⟩

/-- **A heartbeat with a blank name empties the list; a comma in a name splits it.** -/
theorem blank_and_comma :
    (∃ hub, run (step 0) emptyHub [registration ["a"], beat [" "]] = some hub ∧
      (hub.sessions 0).models = [] ∧ ¬ Listed 0 hub) ∧
    ∃ hub, run (step 0) emptyHub [registration ["a,b"]] = some hub ∧
      (hub.sessions 0).models = ["a,b"] ∧ ¬ Listed 0 hub := by
  constructor
  · have hend : (run (step 0) emptyHub [registration ["a"], beat [" "]]).map
        (fun hub => (hub.sessions 0).models) = some [] := by decide
    obtain ⟨hub, hrun, hmodels⟩ := map_eq_some_iff.mp hend
    exact ⟨hub, hrun, hmodels, fun hlisted => hlisted.ne_nil hmodels⟩
  · have hend : (run (step 0) emptyHub [registration ["a,b"]]).map (fun hub =>
        ((hub.sessions 0).models, (hub.db.channel? (hub.sessions 0).channelId).map fun row =>
          names row.models)) = some (["a,b"], some ["a", "b"]) := by decide
    obtain ⟨hub, hrun, hmodels⟩ := map_eq_some_iff.mp hend
    obtain ⟨hsession, hcolumn⟩ := Prod.mk.inj hmodels
    refine ⟨hub, hrun, hsession, fun hlisted => ?_⟩
    obtain ⟨row, hrow, hnames⟩ := hlisted.column
    rw [hrow, map_some, hnames, hsession] at hcolumn
    exact absurd hcolumn (by decide)

end Tokilake.Hub.ModelList
