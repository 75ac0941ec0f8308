import Tokilake.Hub.Effects

/-! # Writes that stay within one namespace

`Frame ns db db'` says that a step leaves the nodes of all other namespaces and their channels as
they are, and the tables well-formed.

* `frame_upsertWrite`: a registration is such a step. -/

namespace Tokilake.Hub.Frames

open Lib.Table Hub.Registry Hub.Effects List

/-- Ids are positive and below the counters; no two nodes share an id, a namespace or a channel. -/
structure WellFormed (db : Db) : Prop where
  nodeIds : Keyed Node.id db.nodes
  nodeBound : ∀ n ∈ db.nodes, n.id ≠ 0 ∧ n.id < db.nextNode
  nsUnique : ∀ n ∈ db.nodes, ∀ n' ∈ db.nodes, n.ns = n'.ns → n = n'
  channelUnique : ∀ n ∈ db.nodes, ∀ n' ∈ db.nodes, n.channelId = n'.channelId → n = n'
  channelBound : ∀ n ∈ db.nodes, n.channelId < db.nextChannel
  channelIds : ∀ c ∈ db.channels, c.id ≠ 0 ∧ c.id < db.nextChannel
  nextNode_pos : 0 < db.nextNode
  nextChannel_pos : 0 < db.nextChannel

structure Frame (ns : String) (db db' : Db) : Prop where
  wf : WellFormed db'
  nodes : ∀ n : Node, n.ns ≠ ns → (n ∈ db'.nodes ↔ n ∈ db.nodes)
  channels : ∀ n ∈ db.nodes, n.ns ≠ ns → db'.channel? n.channelId = db.channel? n.channelId

section
variable {ns : String} {db db' db'' : Db} {n n' : Node}

lemma Frame.refl (h : WellFormed db) : Frame ns db db := ⟨h, fun _ _ => Iff.rfl, fun _ _ _ => rfl⟩

lemma Frame.trans (h : Frame ns db db') (h' : Frame ns db' db'') : Frame ns db db'' where
  wf := h'.wf
  nodes := fun n hn => (h'.nodes n hn).trans (h.nodes n hn)
  channels := fun n hn hne =>
    (h'.channels n ((h.nodes n hne).mpr hn) hne).trans (h.channels n hn hne)

lemma WellFormed.node_eq (h : WellFormed db) (hn : n ∈ db.nodes) (hn' : n' ∈ db.nodes)
    (he : n.id = n'.id) : n = n' := by
  have h1 := lookup_of_mem h.nodeIds hn
  rw [he, lookup_of_mem h.nodeIds hn'] at h1
  exact (Option.some.inj h1).symm

lemma WellFormed.setGroups (h : WellFormed db) (groups : List UserGroup) :
    WellFormed (db.setGroups groups) :=
  ⟨h.nodeIds, h.nodeBound, h.nsUnique, h.channelUnique, h.channelBound, h.channelIds,
    h.nextNode_pos,
    h.nextChannel_pos⟩

lemma frame_setGroups (h : WellFormed db) (groups : List UserGroup) :
    Frame ns db (db.setGroups groups) := ⟨h.setGroups groups, fun _ _ => Iff.rfl, fun _ _ _ => rfl⟩

/-! ### Single writes -/

lemma mem_updateNode (h : WellFormed db) (hn : n ∈ db.nodes) {f : Node → Node} {row : Node} :
    row ∈ (db.updateNode n.id f).nodes ↔ (row ∈ db.nodes ∧ row.id ≠ n.id) ∨ row = f n := by
  unfold Db.updateNode
  rw [mem_update]
  refine or_congr_right ⟨?_, ?_⟩
  · rintro ⟨old, hold, he, rfl⟩
    rw [h.node_eq hold hn he]
  · rintro rfl
    exact ⟨n, hn, rfl, rfl⟩

lemma unique_of_new {β : Type} {key : Node → β} {rows rows' : List Node} (new : Node)
    (h : ∀ a ∈ rows, ∀ b ∈ rows, key a = key b → a = b)
    (hrows : ∀ a ∈ rows', (a ∈ rows ∧ key a ≠ key new) ∨ a = new) :
    ∀ a ∈ rows', ∀ b ∈ rows', key a = key b → a = b := by
  intro a ha b hb he
  rcases hrows a ha with ⟨ha, hne⟩ | rfl <;> rcases hrows b hb with ⟨hb, hne'⟩ | rfl
  · exact h a ha b hb he
  · exact absurd he hne
  · exact absurd he.symm hne'
  · rfl

section

variable (h : WellFormed db)
include h

lemma frame_updateNode (hn : n ∈ db.nodes) {f : Node → Node}
    (hid : ∀ row, (f row).id = row.id) (hns : ∀ row, (f row).ns = row.ns)
    (hbound : (f n).channelId < db.nextChannel)
    (hfree : ∀ n' ∈ db.nodes, n'.id ≠ n.id → n'.channelId ≠ (f n).channelId) :
    Frame n.ns db (db.updateNode n.id f) where
  wf :=
    { nodeIds := keyed_update hid h.nodeIds
      nodeBound := fun row hrow => by
        rcases (mem_updateNode h hn).mp hrow with ⟨hrow, -⟩ | rfl
        · exact h.nodeBound row hrow
        · rw [hid]
          exact h.nodeBound n hn
      nsUnique := unique_of_new (f n) h.nsUnique fun row hrow =>
        ((mem_updateNode h hn).mp hrow).imp_left fun ⟨hrow, hne⟩ => ⟨hrow, fun he =>
          hne (congrArg Node.id (h.nsUnique row hrow n hn (he.trans (hns n))))⟩
      channelUnique := unique_of_new (f n) h.channelUnique fun row hrow =>
        ((mem_updateNode h hn).mp hrow).imp_left fun ⟨hrow, hne⟩ => ⟨hrow, hfree row hrow hne⟩
      channelBound := fun row hrow => by
        rcases (mem_updateNode h hn).mp hrow with ⟨hrow, -⟩ | rfl
        · exact h.channelBound row hrow
        · exact hbound
      channelIds := h.channelIds
      nextNode_pos := h.nextNode_pos
      nextChannel_pos := h.nextChannel_pos }
  nodes := fun row hne => by
    rw [mem_updateNode h hn]
    constructor
    · rintro (⟨hrow, -⟩ | rfl)
      · exact hrow
      · exact absurd (hns n) hne
    · intro hrow
      refine Or.inl ⟨hrow, fun he => hne ?_⟩
      rw [h.node_eq hrow hn he]
  channels := fun _ _ _ => rfl

lemma frame_updateNode_keep (hn : n ∈ db.nodes) {f : Node → Node}
    (hid : ∀ row, (f row).id = row.id) (hns : ∀ row, (f row).ns = row.ns)
    (hchannel : ∀ row, (f row).channelId = row.channelId) :
    Frame n.ns db (db.updateNode n.id f) := by
  refine frame_updateNode h hn hid hns ?_ ?_
  · rw [hchannel]
    exact h.channelBound n hn
  · intro n' hn' hne he
    rw [hchannel] at he
    exact hne (congrArg Node.id (h.channelUnique n' hn' n hn he))

lemma frame_updateChannel (hn : n ∈ db.nodes) {f : Channel → Channel}
    (hf : KeepsChannel f) : Frame n.ns db (db.updateChannel n.channelId f) where
  wf :=
    { h with
      channelIds := fun row hrow => by
        rcases mem_updateChannel hrow with hrow | ⟨old, hold, rfl⟩
        · exact h.channelIds row hrow
        · rw [hf.id]
          exact h.channelIds old hold }
  nodes := fun _ _ => Iff.rfl
  channels := fun n' hn' hne => by
    refine channel?_updateChannel_ne hf fun he => hne ?_
    rw [h.channelUnique n' hn' n hn he]

lemma frame_createChannel (row : Channel) : Frame ns db (db.createChannel row) where
  wf :=
    { h with
      channelBound := fun n hn => Nat.lt_succ_of_lt (h.channelBound n hn)
      channelIds := fun c hc => by
        rcases mem_append.mp hc with hc | hc
        · exact ⟨(h.channelIds c hc).1, Nat.lt_succ_of_lt (h.channelIds c hc).2⟩
        · rw [mem_singleton.mp hc]
          exact ⟨h.nextChannel_pos.ne', Nat.lt_succ_self _⟩
      nextChannel_pos := Nat.succ_pos _ }
  nodes := fun _ _ => Iff.rfl
  channels := fun n hn _ => channel?_createChannel_ne (h.channelBound n hn).ne

lemma frame_createNode (row : Node) (hbound : row.channelId < db.nextChannel)
    (hfree : ∀ n ∈ db.nodes, n.ns ≠ row.ns ∧ n.channelId ≠ row.channelId) :
    Frame row.ns db (db.createNode row) where
  wf :=
    { nodeIds := keyed_insert h.nodeIds fun n hn => (h.nodeBound n hn).2.ne
      nodeBound := fun n hn => by
        rcases mem_append.mp hn with hn | hn
        · exact ⟨(h.nodeBound n hn).1, Nat.lt_succ_of_lt (h.nodeBound n hn).2⟩
        · rw [mem_singleton.mp hn]
          exact ⟨h.nextNode_pos.ne', Nat.lt_succ_self _⟩
      nsUnique := unique_of_new { row with id := db.nextNode } h.nsUnique fun n hn =>
        (mem_append.mp hn).imp (fun hn => ⟨hn, (hfree n hn).1⟩) mem_singleton.mp
      channelUnique := unique_of_new { row with id := db.nextNode } h.channelUnique fun n hn =>
        (mem_append.mp hn).imp (fun hn => ⟨hn, (hfree n hn).2⟩) mem_singleton.mp
      channelBound := fun n hn => by
        rcases mem_append.mp hn with hn | hn
        · exact h.channelBound n hn
        · rw [mem_singleton.mp hn]
          exact hbound
      channelIds := h.channelIds
      nextNode_pos := Nat.succ_pos _
      nextChannel_pos := h.nextChannel_pos }
  nodes := fun n hne => by
    unfold Db.createNode
    rw [mem_append, mem_singleton]
    refine or_iff_left fun he => hne ?_
    rw [he]
  channels := fun _ _ _ => rfl

end

/-! ### The calls -/

def Owns (db : Db) (ns : String) (w c : ℕ) : Prop :=
  ∃ n ∈ db.nodes, n.id = w ∧ n.ns = ns ∧ n.channelId = c

lemma Owns.frame {ns' : String} {w c : ℕ} (h : Owns db ns w c) (hf : Frame ns' db db')
    (hne : ns ≠ ns') : Owns db' ns w c := by
  obtain ⟨n, hn, rfl, rfl, rfl⟩ := h
  exact ⟨n, (hf.nodes n hne).mpr hn, rfl, rfl, rfl⟩

structure Fits (db : Db) (ns : String) (snap : Snapshot) : Prop where
  node : ∀ n, snap.node = some n ↔ n ∈ db.nodes ∧ n.ns = ns
  channel : ∀ row, snap.channel = some row → row.id ≠ 0 ∧ ∃ n, snap.node = some n ∧
    row.id = n.channelId

lemma Fits.frame {ns' : String} {snap : Snapshot} (h : Fits db ns snap) (hf : Frame ns' db db')
    (hne : ns ≠ ns') : Fits db' ns snap where
  node := fun n => by
    rw [h.node]
    constructor
    · rintro ⟨hn, rfl⟩
      exact ⟨(hf.nodes n hne).mpr hn, rfl⟩
    · rintro ⟨hn, rfl⟩
      exact ⟨(hf.nodes n hne).mp hn, rfl⟩
  channel := h.channel

lemma mem_of_nodeByNamespace (h : db.nodeByNamespace ns = some n) : n ∈ db.nodes ∧ n.ns = ns :=
  ⟨mem_of_find?_eq_some h, by simpa using find?_some h⟩

lemma nodeByNamespace_iff (hwf : WellFormed db) :
    db.nodeByNamespace ns = some n ↔ n ∈ db.nodes ∧ n.ns = ns := by
  constructor
  · exact mem_of_nodeByNamespace
  · rintro ⟨hn, rfl⟩
    rcases h : db.nodeByNamespace n.ns with _ | n'
    · have := find?_eq_none.mp h n hn
      simp at this
    · obtain ⟨hn', hns⟩ := mem_of_nodeByNamespace h
      rw [hwf.nsUnique n' hn' n hn hns]

lemma fits_upsertRead (hwf : WellFormed db) {sql : Sql} {userId : ℤ} {plan : RegisterResult}
    {snap : Snapshot} (h : upsertRead sql db userId plan = .ok snap) : Fits db plan.ns snap := by
  unfold upsertRead at h
  split at h
  · exact nomatch h
  dsimp only at h
  split at h
  · exact nomatch h
  split at h
  · exact nomatch h
  next channel hchannel =>
  obtain rfl := Except.ok.inj h
  refine ⟨fun n => nodeByNamespace_iff hwf, fun row hrow => ?_⟩
  obtain rfl : channel = some row := hrow
  -- a channel is only loaded for a node that names one
  unfold loadOrCreateTokiameChannel at hchannel
  split_ifs at hchannel with hzero
  · exact nomatch hchannel
  split at hchannel
  · exact nomatch hchannel
  have hid := id_of_channel? (Except.ok.inj hchannel)
  rcases hnode : db.nodeByNamespace plan.ns with _ | n
  · rw [hnode] at hzero
    exact absurd rfl hzero
  · rw [hnode] at hid hzero
    exact ⟨by rw [hid]; exact hzero, n, rfl, hid⟩

lemma clash_eq_false {id c : ℕ} (h : db.clash id ns c = false) (hn : n ∈ db.nodes)
    (hne : n.id ≠ id) :
    n.ns ≠ ns ∧ n.channelId ≠ c := by
  have := any_eq_false.mp h n hn
  simpa [hne] using this

section

variable (hwf : WellFormed db)
include hwf

lemma frame_putChannel {now : ℤ} {plan : RegisterResult} {nodeName : String}
    {snap : Snapshot} {c : ℕ} (hfit : Fits db plan.ns snap)
    (h : putChannel now plan nodeName db snap.channel = (db', c)) :
    Frame plan.ns db db' ∧ db'.nodes = db.nodes ∧ c ≠ 0 ∧ c < db'.nextChannel := by
  rcases hc : snap.channel with _ | row
  · rw [hc] at h
    obtain ⟨rfl, rfl⟩ := Prod.mk.inj h
    exact ⟨frame_createChannel hwf _, rfl, hwf.nextChannel_pos.ne', Nat.lt_succ_self _⟩
  rw [hc] at h
  obtain ⟨rfl, rfl⟩ := Prod.mk.inj h
  obtain ⟨hid, n, hn, he⟩ := hfit.channel row hc
  obtain ⟨hmem, hns⟩ := (hfit.node n).mp hn
  have hframe := frame_updateChannel hwf hmem (keepsChannel_columns plan nodeName)
  rw [hns, ← he] at hframe
  refine ⟨hframe, rfl, hid, ?_⟩
  rw [he]
  exact hwf.channelBound n hmem

lemma frame_putNode {now userId : ℤ} {plan : RegisterResult} {nodeName : String}
    {hardwareInfo : Option String} {snap : Snapshot} {c w : ℕ} (hfit : Fits db plan.ns snap)
    (hc : c < db.nextChannel) (hclash : db.clash ((snap.node.map Node.id).getD 0) plan.ns c = false)
    (h : putNode now userId plan nodeName hardwareInfo c db snap.node = (db', w)) :
    Frame plan.ns db db' ∧ Owns db' plan.ns w c ∧ w ≠ 0 := by
  rcases hn : snap.node with _ | n
  · rw [hn] at h hclash
    obtain ⟨rfl, rfl⟩ := Prod.mk.inj h
    have hfree : ∀ n ∈ db.nodes, n.ns ≠ plan.ns ∧ n.channelId ≠ c := fun n hn =>
      clash_eq_false hclash hn (hwf.nodeBound n hn).1
    have hframe := frame_createNode hwf
      (nodeColumns now userId plan nodeName (hardwareInfo.getD "") c (newNode now plan.ns)) hc hfree
    refine ⟨hframe, ?_, hwf.nextNode_pos.ne'⟩
    exact ⟨_, mem_append_right _ (mem_singleton.mpr rfl), rfl, rfl, rfl⟩
  · rw [hn] at h hclash
    obtain ⟨rfl, rfl⟩ := Prod.mk.inj h
    obtain ⟨hmem, hns⟩ := (hfit.node n).mp hn
    have hframe := frame_updateNode hwf hmem
      (f := nodeColumns now userId plan nodeName (hardwareInfo.getD n.hardwareInfo) c)
      (fun _ => rfl) (fun _ => rfl) hc fun n' hn' hne => (clash_eq_false hclash hn' hne).2
    rw [hns] at hframe
    refine ⟨hframe, ⟨_, (mem_updateNode hwf hmem).mpr (Or.inr rfl), rfl, hns, rfl⟩, ?_⟩
    exact (hwf.nodeBound n hmem).1

lemma frame_upsertWrite {sql : Sql} {now userId : ℤ} {msg : RegisterMessage}
    {plan result : RegisterResult} {snap : Snapshot} (hfit : Fits db plan.ns snap)
    (h : upsertWrite sql now db userId msg plan snap = .ok (db', result)) :
    Frame plan.ns db db' ∧ Owns db' plan.ns result.workerId result.channelId ∧
      result.workerId ≠ 0 ∧ result.channelId ≠ 0 := by
  obtain ⟨groups, mid, c, hmid, hclash, w, hlast, rfl⟩ := upsertWrite_ok h
  have hfit' : Fits (db.setGroups groups) plan.ns snap := ⟨hfit.node, hfit.channel⟩
  obtain ⟨hframe, hnodes, hc, hlt⟩ := frame_putChannel (hwf.setGroups groups) hfit' hmid
  have hfit'' : Fits mid plan.ns snap := ⟨fun n => by rw [hnodes]; exact hfit'.node n, hfit.channel⟩
  obtain ⟨hframe', howns, hw⟩ := frame_putNode hframe.wf hfit'' hlt hclash hlast
  exact ⟨((frame_setGroups hwf groups).trans hframe).trans hframe', howns, hw, hc⟩

/-- A rewriting of node rows that keeps the id, the namespace and the channel. -/
structure KeepsNode (f : Node → Node) : Prop where
  id : ∀ row, (f row).id = row.id
  ns : ∀ row, (f row).ns = row.ns
  channelId : ∀ row, (f row).channelId = row.channelId

lemma Owns.frame_node {w c : ℕ} (h : Owns db ns w c) {f : Node → Node}
    (hf : KeepsNode f) : Frame ns db (db.updateNode w f) := by
  obtain ⟨n, hn, rfl, rfl, rfl⟩ := h
  exact frame_updateNode_keep hwf hn hf.id hf.ns hf.channelId

lemma Owns.frame_channel {w c : ℕ} (h : Owns db ns w c)
    {f : Channel → Channel} (hf : KeepsChannel f) : Frame ns db (db.updateChannel c f) := by
  obtain ⟨n, hn, rfl, rfl, rfl⟩ := h
  exact frame_updateChannel hwf hn hf

end

lemma Owns.updateNode {w c : ℕ} (h : Owns db ns w c) {f : Node → Node} (hf : KeepsNode f) :
    Owns (db.updateNode w f) ns w c := by
  obtain ⟨n, hn, rfl, rfl, rfl⟩ := h
  exact ⟨f n, mem_update.mpr (Or.inr ⟨n, hn, rfl, rfl⟩), hf.id n, hf.ns n, hf.channelId n⟩

end

end Tokilake.Hub.Frames
