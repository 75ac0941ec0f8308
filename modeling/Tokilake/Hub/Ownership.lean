import Tokilake.Hub.Frames
import Tokilake.Hub.Lifecycle

/-! # Every namespace has one owner

A session *holds* its namespace from the claim to the release and is *bound* from `BindChannel` on.

* `ownership`: no two sessions hold a namespace or share a row, in any interleaving. -/

namespace Tokilake.Hub.Ownership

open Lib.Run Lib.Text Lib.Table Hub.Groups Hub.Registry Function
  Hub.Effects Hub.Frames Hub.Lifecycle

/-! ### Holding and being bound -/

def Bound (workerId : ℕ) : Phase → Prop
  | .registered | .beating _ | .beaten _ | .syncing .. | .cleaning => True
  | .ending | .cleaned => workerId ≠ 0
  | _ => False

def Registering : Phase → Prop
  | .claimed _ | .loaded .. | .committed .. | .failed => True
  | _ => False

def Holding (workerId : ℕ) (p : Phase) : Prop := Registering p ∨ Bound workerId p

abbrev Holds (w : World) (s : ℕ) : Prop := Holding (w.hub.sessions s).workerId (w.phase s)

abbrev Binds (w : World) (s : ℕ) : Prop := Bound (w.hub.sessions s).workerId (w.phase s)

def Local (db : Db) (ns : String) : Phase → Prop
  | .claimed msg => trimSpace msg.ns = ns
  | .loaded _ plan snap => plan.ns = ns ∧ Fits db ns snap
  | .committed result _ => result.workerId ≠ 0 ∧ result.channelId ≠ 0 ∧
      Owns db ns result.workerId result.channelId
  | _ => True

lemma local_of_not_holding {db : Db} {ns : String} {w : ℕ} {p : Phase} (h : ¬ Holding w p) :
    Local db ns p := by
  cases p <;> first | trivial | exact absurd (Or.inl trivial) h

lemma Local.frame {db db' : Db} {ns ns' : String} {p : Phase} (h : Local db ns p)
    (hf : Frame ns' db db') (hne : ns ≠ ns') : Local db' ns p := by
  cases p with
  | loaded msg plan snap => exact ⟨h.1, h.2.frame hf hne⟩
  | committed result limit => exact ⟨h.1, h.2.1, h.2.2.frame hf hne⟩
  | claimed msg => exact h
  | _ => trivial

structure Good (hub : State) (released : Bool) (s : ℕ) (p : Phase) : Prop where
  holds : Holding (hub.sessions s).workerId p →
    hub.byNamespace (hub.sessions s).ns = some s ∧ (hub.sessions s).ns ≠ "" ∧ released = false
  bound : Bound (hub.sessions s).workerId p →
    hub.byChannelId (hub.sessions s).channelId = some s ∧ (hub.sessions s).workerId ≠ 0 ∧
      (hub.sessions s).channelId ≠ 0 ∧
      Owns hub.db (hub.sessions s).ns (hub.sessions s).workerId (hub.sessions s).channelId
  unbound : ¬ Bound (hub.sessions s).workerId p → p ≠ .gone →
    (hub.sessions s).workerId = 0 ∧ (hub.sessions s).channelId = 0
  live : released = false → (hub.sessions s).ns ≠ "" → Holding (hub.sessions s).workerId p
  fresh : p = .fresh → released = false
  facts : Local hub.db (hub.sessions s).ns p

structure Inv (w : World) : Prop where
  wf : WellFormed w.hub.db
  good : ∀ s, Good w.hub (w.released s) s (w.phase s)
  nsMap : ∀ ns s, w.hub.byNamespace ns = some s → Holds w s ∧ (w.hub.sessions s).ns = ns
  chMap : ∀ c s, w.hub.byChannelId c = some s → Binds w s ∧ (w.hub.sessions s).channelId = c

lemma inv_init {db : Db} (h : WellFormed db) (users : ℕ → ℤ) : Inv (init db users) where
  wf := h
  good := fun _ =>
    { holds := fun h => h.elim False.elim False.elim
      bound := False.elim
      unbound := fun _ _ => ⟨rfl, rfl⟩
      live := fun _ h => absurd rfl h
      fresh := fun _ => rfl
      facts := trivial }
  nsMap := fun _ _ h => nomatch h
  chMap := fun _ _ h => nomatch h

/-! ### Steps of one session -/

/-- Only session `s` has moved, and the tables changed at most within the namespace it holds. -/
structure Moves (w w' : World) (s : ℕ) : Prop where
  sessions : ∀ s' ≠ s, w'.hub.sessions s' = w.hub.sessions s'
  phase : ∀ s' ≠ s, w'.phase s' = w.phase s'
  released : ∀ s' ≠ s, w'.released s' = w.released s'
  byNamespace : ∀ ns, ∀ s' ≠ s, w'.hub.byNamespace ns = some s' ↔ w.hub.byNamespace ns = some s'
  byChannelId : ∀ c, ∀ s' ≠ s, w'.hub.byChannelId c = some s' ↔ w.hub.byChannelId c = some s'
  db : w'.hub.db = w.hub.db ∨ (Holds w s ∧ Frame (w.hub.sessions s).ns w.hub.db w'.hub.db)

structure Keeps (w : World) (s : ℕ) (w' : World) : Prop where
  moves : Moves w w' s
  inv : Inv w'

@[simp] lemma goto_phase (w : World) (s : ℕ) (hub : State) (p : Phase) :
    (w.goto s hub p).phase s = p := update_self ..

lemma update_other {κ : Type} [DecidableEq κ] {m : κ → Option ℕ} {k : κ} {s s' : ℕ} {v : Option ℕ}
    (hk : m k = none ∨ m k = some s) (hv : v = none ∨ v = some s) (hne : s' ≠ s) (k' : κ) :
    update m k v k' = some s' ↔ m k' = some s' := by
  by_cases he : k' = k
  · subst he
    rcases hk with hk | hk <;> rcases hv with hv | hv <;> simp [hk, hv, hne.symm]
  · rw [update_of_ne he]

section
variable {w w' : World} {s s' : ℕ}

lemma Inv.ns_ne (hI : Inv w) (h : Holds w s)
    (h' : Holds w s') (hne : s' ≠ s) : (w.hub.sessions s').ns ≠ (w.hub.sessions s).ns := by
  intro he
  have h1 := ((hI.good s).holds h).1
  rw [← he, ((hI.good s').holds h').1] at h1
  exact hne (Option.some.inj h1)

lemma good_of_moves (hI : Inv w) (hm : Moves w w' s) (hne : s' ≠ s) :
    Good w'.hub (w'.released s') s' (w'.phase s') := by
  have hgood := hI.good s'
  have hframe : Holds w s' →
      w'.hub.db = w.hub.db ∨ ∃ ns, (w.hub.sessions s').ns ≠ ns ∧ Frame ns w.hub.db w'.hub.db := by
    intro h'
    rcases hm.db with h | ⟨h, hf⟩
    · exact Or.inl h
    · exact Or.inr ⟨_, hI.ns_ne h h' hne, hf⟩
  rw [hm.phase s' hne, hm.released s' hne]
  refine ⟨?_, ?_, ?_, ?_, hgood.fresh, ?_⟩ <;> rw [hm.sessions s' hne]
  · intro h
    rw [hm.byNamespace _ s' hne]
    exact hgood.holds h
  · intro h
    obtain ⟨h1, h2, h3, howns⟩ := hgood.bound h
    refine ⟨(hm.byChannelId _ s' hne).mpr h1, h2, h3, ?_⟩
    rcases hframe (Or.inr h) with he | ⟨ns, hns, hf⟩
    · rw [he]; exact howns
    · exact howns.frame hf hns
  · exact hgood.unbound
  · exact hgood.live
  · by_cases h : Holds w s'
    · rcases hframe h with he | ⟨ns, hns, hf⟩
      · rw [he]; exact hgood.facts
      · exact hgood.facts.frame hf hns
    · exact local_of_not_holding h

lemma inv_of_moves (hI : Inv w) (hm : Moves w w' s)
    (hgood : Good w'.hub (w'.released s) s (w'.phase s))
    (hns : ∀ ns, w'.hub.byNamespace ns = some s → Holds w' s ∧ (w'.hub.sessions s).ns = ns)
    (hch : ∀ c, w'.hub.byChannelId c = some s → Binds w' s ∧ (w'.hub.sessions s).channelId = c) :
    Inv w' where
  wf := by
    rcases hm.db with h | ⟨-, hf⟩
    · rw [h]; exact hI.wf
    · exact hf.wf
  good := fun s' => by
    by_cases hne : s' = s
    · rw [hne]; exact hgood
    · exact good_of_moves hI hm hne
  nsMap := fun ns s' h => by
    by_cases hne : s' = s
    · rw [hne] at h ⊢; exact hns ns h
    · rw [Holds, hm.sessions s' hne, hm.phase s' hne]
      exact hI.nsMap ns s' ((hm.byNamespace ns s' hne).mp h)
  chMap := fun c s' h => by
    by_cases hne : s' = s
    · rw [hne] at h ⊢; exact hch c h
    · rw [Binds, hm.sessions s' hne, hm.phase s' hne]
      exact hI.chMap c s' ((hm.byChannelId c s' hne).mp h)

structure SameIds (s : ℕ) (hub hub' : State) : Prop where
  byNamespace : hub'.byNamespace = hub.byNamespace
  byChannelId : hub'.byChannelId = hub.byChannelId
  others : ∀ s' ≠ s, hub'.sessions s' = hub.sessions s'
  ns : (hub'.sessions s).ns = (hub.sessions s).ns
  workerId : (hub'.sessions s).workerId = (hub.sessions s).workerId
  channelId : (hub'.sessions s).channelId = (hub.sessions s).channelId

lemma sameIds_setDb (s : ℕ) (hub : State) (db : Db) : SameIds s hub (hub.setDb db) :=
  ⟨rfl, rfl, fun _ _ => rfl, rfl, rfl, rfl⟩

lemma step_inner (hI : Inv w) {hub : State} {p : Phase} (hsame : SameIds s w.hub hub)
    (hdb : hub.db = w.hub.db ∨ (Holds w s ∧ Frame (w.hub.sessions s).ns w.hub.db hub.db))
    (howns : Binds w s →
      Owns hub.db (w.hub.sessions s).ns (w.hub.sessions s).workerId (w.hub.sessions s).channelId)
    (hhold : Holding (w.hub.sessions s).workerId p ↔ Holds w s)
    (hbound : Bound (w.hub.sessions s).workerId p ↔ Binds w s)
    (hgone : w.phase s ≠ .gone) (hfresh : p ≠ .fresh)
    (hlocal : Local hub.db (w.hub.sessions s).ns p) :
    Keeps w s (w.goto s hub p) := by
  have hm : Moves w (w.goto s hub p) s :=
    { sessions := hsame.others
      phase := fun s' hne => update_of_ne hne ..
      released := fun _ _ => rfl
      byNamespace := fun ns s' _ => by rw [World.goto, hsame.byNamespace]
      byChannelId := fun c s' _ => by rw [World.goto, hsame.byChannelId]
      db := hdb }
  have hgood := hI.good s
  refine ⟨hm, inv_of_moves hI hm ?_ ?_ ?_⟩
  · rw [goto_phase]
    refine ⟨?_, ?_, ?_, ?_, fun h => absurd h hfresh, ?_⟩ <;>
      simp only [World.goto, hsame.ns, hsame.workerId, hsame.channelId, hsame.byNamespace,
        hsame.byChannelId, hhold, hbound]
    · exact hgood.holds
    · exact fun h => ⟨(hgood.bound h).1, (hgood.bound h).2.1, (hgood.bound h).2.2.1, howns h⟩
    · exact fun h _ => hgood.unbound h hgone
    · exact hgood.live
    · exact hlocal
  · intro ns h
    rw [Holds, goto_phase]
    simp only [World.goto, hsame.ns, hsame.workerId, hhold]
    exact hI.nsMap ns s (hsame.byNamespace ▸ h)
  · intro c h
    rw [Binds, goto_phase]
    simp only [World.goto, hsame.workerId, hsame.channelId, hbound]
    exact hI.chMap c s (hsame.byChannelId ▸ h)

lemma step_quiet (hI : Inv w) {p : Phase}
    (hhold : Holding (w.hub.sessions s).workerId p ↔ Holds w s)
    (hbound : Bound (w.hub.sessions s).workerId p ↔ Binds w s)
    (hgone : w.phase s ≠ .gone) (hfresh : p ≠ .fresh)
    (hlocal : Local w.hub.db (w.hub.sessions s).ns p) : Keeps w s (w.goto s w.hub p) :=
  step_inner hI (sameIds_setDb ..) (Or.inl rfl)
    (fun h => ((hI.good s).bound h).2.2.2) hhold hbound hgone hfresh hlocal

/-! ### Registration -/

lemma moves_claim (s : ℕ) {ns : String} (hnone : w.hub.byNamespace ns = none)
    (msg : RegisterMessage) : Moves w (w.goto s (w.hub.setNamespace s ns) (.claimed msg)) s where
  sessions := fun _ hne => update_of_ne hne ..
  phase := fun _ hne => update_of_ne hne ..
  released := fun _ _ => rfl
  byNamespace := fun _ _ hne => update_other (Or.inl hnone) (Or.inr rfl) hne _
  byChannelId := fun _ _ _ => Iff.rfl
  db := Or.inl rfl

lemma step_claim (hI : Inv w) (hp : w.phase s = .fresh) (msg : RegisterMessage) :
    Keeps w s (claim w s msg) := by
  have hnot : ¬ Holds w s := by rw [Holds, hp]; exact fun h => h.elim id id
  have hgood := hI.good s
  rw [hp] at hgood
  obtain ⟨hw, hc⟩ := hgood.unbound id (by simp)
  have hquiet : Keeps w s (w.goto s w.hub .ending) :=
    step_quiet hI (by simp [Holding, Registering, Bound, hp, hw])
      (by simp [Bound, hp, hw]) (by simp [hp])
      (by simp) trivial
  unfold claim
  generalize hns : trimSpace msg.ns = ns
  split_ifs with hblank
  · exact hquiet
  rcases claimNamespace_cases w.hub s ns with ⟨hfree, hclaim⟩ | ⟨-, hclaim⟩
  · -- the namespace is free: an entry of the session itself would mean that it holds one
    have hnone : w.hub.byNamespace ns = none := by
      rcases hfree with h | h
      · exact h
      · exact absurd (hI.nsMap _ _ h).1 hnot
    rw [hclaim]
    have hm := moves_claim s hnone msg
    refine ⟨hm, inv_of_moves hI hm ?_ ?_ ?_⟩
    · rw [goto_phase]
      refine ⟨?_, False.elim, ?_, ?_, (by rintro ⟨⟩), ?_⟩ <;>
        simp only [World.goto, State.setNamespace, update_self]
      · exact fun _ => ⟨trivial, hblank, hgood.fresh rfl⟩
      · exact fun _ _ => ⟨hw, hc⟩
      · exact fun _ _ => Or.inl trivial
      · exact hns
    · intro ns' h
      rw [Holds, goto_phase]
      simp only [World.goto, State.setNamespace, update_self] at h ⊢
      refine ⟨Or.inl trivial, ?_⟩
      by_contra hne
      rw [update_of_ne (Ne.symm hne)] at h
      exact hnot (hI.nsMap ns' s h).1
    · exact fun c h => absurd (.inr (hI.chMap c s h).1) hnot
  · rw [hclaim]
    exact hquiet

lemma Inv.channel_free (hI : Inv w) (h : Holds w s)
    (hb : ¬ Binds w s) {workerId channelId : ℕ}
    (howns : Owns w.hub.db (w.hub.sessions s).ns workerId channelId) :
    w.hub.byChannelId channelId = none := by
  rcases hch : w.hub.byChannelId channelId with _ | s'
  · rfl
  obtain ⟨hbound, hid⟩ := hI.chMap _ _ hch
  obtain ⟨-, -, -, n', hn', -, hns', hch'⟩ := (hI.good s').bound hbound
  obtain ⟨n, hn, -, hns, hch⟩ := howns
  have he : n = n' := hI.wf.channelUnique n hn n' hn' (by rw [hch, hch', hid])
  have hss : s' = s := by
    by_contra hne
    exact hI.ns_ne h (Or.inr hbound) hne (by rw [← hns', ← hns, he])
  exact absurd (hss ▸ hbound) hb

lemma moves_bind {result : RegisterResult} (limit : ℤ)
    (hdrop : dropChannel w.hub s result.channelId = w.hub.byChannelId)
    (hnone : w.hub.byChannelId result.channelId = none) :
    Moves w (w.goto s (bindChannel w.hub s result limit) .registered) s where
  sessions := fun _ hne => update_of_ne hne ..
  phase := fun _ hne => update_of_ne hne ..
  released := fun _ _ => rfl
  byNamespace := fun _ _ _ => Iff.rfl
  byChannelId := fun c _ hne => by
    simp only [World.goto, bindChannel, hdrop]
    exact update_other (Or.inl hnone) (Or.inr rfl) hne c
  db := Or.inl rfl

lemma step_bind (hI : Inv w) {result : RegisterResult} {limit : ℤ}
    (hp : w.phase s = .committed result limit) :
    Keeps w s (w.goto s (bindChannel w.hub s result limit) .registered) := by
  have hgood := hI.good s
  rw [hp] at hgood
  obtain ⟨-, hc⟩ := hgood.unbound id (by simp)
  obtain ⟨hw', hc', howns⟩ := hgood.facts
  obtain ⟨hmap, hns, hrel⟩ := hgood.holds (Or.inl trivial)
  have hdrop : dropChannel w.hub s result.channelId = w.hub.byChannelId := by simp [dropChannel, hc]
  have hnot : ¬ Binds w s := by rw [Binds, hp]; exact id
  have hnone := hI.channel_free (by rw [Holds, hp]; exact Or.inl trivial) hnot howns
  have hm := moves_bind limit hdrop hnone
  refine ⟨hm, inv_of_moves hI hm ?_ ?_ ?_⟩
  · rw [goto_phase]
    refine ⟨?_, ?_, fun h => absurd trivial h, fun _ _ => Or.inr trivial,
      (by rintro ⟨⟩), trivial⟩ <;>
      simp only [World.goto, bindChannel, bindSession, update_self]
    · exact fun _ => ⟨hmap, hns, hrel⟩
    · exact fun _ => ⟨trivial, hw', hc', howns⟩
  · intro ns h
    rw [Holds, goto_phase]
    simp only [World.goto, bindChannel, bindSession, update_self]
    exact ⟨Or.inr trivial, (hI.nsMap ns s h).2⟩
  · intro c h
    rw [Binds, goto_phase]
    simp only [World.goto, bindChannel, bindSession, update_self, hdrop] at h ⊢
    refine ⟨trivial, ?_⟩
    by_contra hne
    rw [update_of_ne (Ne.symm hne)] at h
    exact hnot (hI.chMap c s h).1

/-! ### Release -/

lemma moves_release (w : World) (s : ℕ) (p : Phase) : Moves w (w.release s p) s where
  sessions := fun _ _ => rfl
  phase := fun _ hne => update_of_ne hne ..
  released := fun _ hne => update_of_ne hne ..
  byNamespace := fun ns _ hne => by
    simp only [World.release, Registry.release]
    split_ifs with h
    · exact update_other (Or.inr h.2) (Or.inl rfl) hne ns
    · rfl
  byChannelId := fun c _ hne => by
    simp only [World.release, Registry.release]
    split_ifs with h
    · exact update_other (Or.inr h.2) (Or.inl rfl) hne c
    · rfl
  db := Or.inl rfl

/-- The entry of the session, if there was one, is gone. -/
lemma released_ne {κ : Type} [DecidableEq κ] {m : κ → Option ℕ} {k : κ} {c : Prop} [Decidable c]
    (hk : ∀ k', m k' = some s → c ∧ k = k') (k' : κ) :
    (if c ∧ m k = some s then update m k none else m) k' ≠ some s := by
  intro h
  split_ifs at h with hcond
  · by_cases he : k' = k
    · rw [he, update_self] at h; cases h
    · rw [update_of_ne he] at h
      exact he (hk k' h).2.symm
  · obtain ⟨hc, rfl⟩ := hk k' h
    exact hcond ⟨hc, h⟩

lemma step_release (hI : Inv w) {p : Phase} (hfresh : p ≠ .fresh)
    (hhold : ¬ Holding (w.hub.sessions s).workerId p)
    (hzero : p ≠ .gone → (w.hub.sessions s).workerId = 0 ∧ (w.hub.sessions s).channelId = 0) :
    Keeps w s (w.release s p) := by
  have hm := moves_release w s p
  have hphase : (w.release s p).phase s = p := update_self ..
  have hrel : (w.release s p).released s = true := update_self ..
  refine ⟨hm, inv_of_moves hI hm ?_ ?_ ?_⟩
  · rw [hphase, hrel]
    exact
      { holds := fun h => absurd h hhold
        bound := fun h => absurd (Or.inr h) hhold
        unbound := fun _ => hzero
        live := fun h => by cases h
        fresh := fun h => absurd h hfresh
        facts := local_of_not_holding hhold }
  · refine fun ns h => absurd h (released_ne (fun ns h => ?_) ns)
    obtain ⟨hholds, hns⟩ := hI.nsMap ns s h
    exact ⟨((hI.good s).holds hholds).2.1, hns⟩
  · refine fun c h => absurd h (released_ne (fun c h => ?_) c)
    obtain ⟨hbound, hc⟩ := hI.chMap c s h
    exact ⟨((hI.good s).bound hbound).2.2.1, hc⟩

/-! ### The other steps -/

lemma not_bound_of_registering {workerId : ℕ} {p : Phase} (h : Registering p) :
    ¬ Bound workerId p := by
  cases p <;> simp_all [Registering, Bound]

section

variable (hI : Inv w)
include hI

lemma step_registering (hs : Registering (w.phase s)) {p : Phase}
    {db : Db} (hp : Registering p) (hdb : db = w.hub.db ∨ Frame (w.hub.sessions s).ns w.hub.db db)
    (hlocal : Local db (w.hub.sessions s).ns p) : Keeps w s (w.goto s (w.hub.setDb db) p) := by
  have hbound : ¬ Binds w s := not_bound_of_registering hs
  refine step_inner hI (sameIds_setDb ..) (hdb.imp_right fun h => ⟨.inl hs, h⟩)
    (fun h => absurd h hbound)
    (iff_of_true (.inl hp) (.inl hs))
      (iff_of_false (not_bound_of_registering hp) hbound) ?_ ?_ hlocal
  · exact fun h => by rw [h] at hs; exact hs
  · rintro rfl
    exact hp

lemma step_load {msg : RegisterMessage} (hp : w.phase s = .claimed msg)
    (dir : Directory) : Keeps w s (load w s dir msg) := by
  have hfacts := (hI.good s).facts
  rw [hp] at hfacts
  have hs : Registering (w.phase s) := by rw [hp]; trivial
  unfold load
  split
  · exact step_registering hI hs (by exact trivial) (.inl rfl) trivial
  next plan hplan =>
  split
  · exact step_registering hI hs (by exact trivial) (.inl rfl) trivial
  next snap hread =>
  have hns : plan.ns = (w.hub.sessions s).ns := by
    obtain ⟨-, group, -, rfl⟩ := upsertPlan_ok hplan
    exact hfacts
  have hfit := fits_upsertRead hI.wf hread
  rw [hns] at hfit
  exact step_registering hI hs (by exact trivial) (.inl rfl) ⟨hns, hfit⟩

lemma step_commit {msg : RegisterMessage} {plan : RegisterResult} {snap : Snapshot}
    (hp : w.phase s = .loaded msg plan snap) (now : ℤ) :
    Keeps w s (commit w s now msg plan snap) := by
  have hfacts := (hI.good s).facts
  rw [hp] at hfacts
  obtain ⟨hns, hfit⟩ := hfacts
  have hs : Registering (w.phase s) := by rw [hp]; trivial
  unfold commit
  split
  · exact step_registering hI hs (by exact trivial) (.inl rfl) trivial
  next db result hwrite =>
  rw [← hns] at hfit
  obtain ⟨hframe, howns, hw, hc⟩ := frame_upsertWrite hI.wf hfit hwrite
  rw [hns] at hframe howns
  exact step_registering hI hs (by exact trivial) (.inr hframe) ⟨hw, hc, howns⟩

lemma step_bound (hb : Binds w s) {hub : State}
    {p : Phase} (hsame : SameIds s w.hub hub) (hdb : Frame (w.hub.sessions s).ns w.hub.db hub.db)
    (howns : Owns hub.db (w.hub.sessions s).ns (w.hub.sessions s).workerId
      (w.hub.sessions s).channelId)
    (hbound : (w.hub.sessions s).workerId ≠ 0 → Bound (w.hub.sessions s).workerId p) :
    Keeps w s (w.goto s hub p) := by
  have hbound' := hbound ((hI.good s).bound hb).2.1
  have hgone : w.phase s ≠ .gone := fun he => by rw [Binds, he] at hb; exact hb
  have hfresh : p ≠ .fresh := fun he => by rw [he] at hbound'; exact hbound'
  have hlocal : Local hub.db (w.hub.sessions s).ns p := by cases p <;> trivial
  exact step_inner hI hsame (Or.inr ⟨Or.inr hb, hdb⟩) (fun _ => howns)
    ⟨fun _ => Or.inr hb, fun _ => Or.inr hbound'⟩
      ⟨fun _ => hb, fun _ => hbound'⟩ hgone hfresh hlocal

lemma step_bound_quiet (hb : Binds w s) {p : Phase}
    (hbound : (w.hub.sessions s).workerId ≠ 0 → Bound (w.hub.sessions s).workerId p) :
    Keeps w s (w.goto s w.hub p) :=
  step_bound hI hb (sameIds_setDb ..) (.refl hI.wf)
    ((hI.good s).bound hb).2.2.2 hbound

lemma step_unbound_quiet (hb : ¬ Holds w s)
    (hgone : w.phase s ≠ .gone) {p : Phase} (hp : p = .ending ∨ p = .cleaned) :
    Keeps w s (w.goto s w.hub p) := by
  obtain ⟨hw, -⟩ := (hI.good s).unbound (fun h => hb (Or.inr h)) hgone
  have hbound : ¬ Bound (w.hub.sessions s).workerId p := by
    rcases hp with rfl | rfl <;> exact fun h => h hw
  have hhold : ¬ Holding (w.hub.sessions s).workerId p := by
    rcases hp with rfl | rfl <;> exact fun h => h.elim False.elim hbound
  refine step_quiet hI (iff_of_false hhold hb) (iff_of_false hbound fun h => hb (Or.inr h)) hgone ?_
    (local_of_not_holding hhold)
  rcases hp with rfl | rfl <;> simp

lemma step_beatNode (hp : w.phase s = .registered) (now : ℤ) (msg : HeartbeatMessage) :
    Keeps w s (w.goto s (w.hub.setDb (w.hub.db.updateNode (w.hub.sessions s).workerId
      (heartbeatNode now (w.hub.sessions s) msg))) (.beating msg)) := by
  have hb : Binds w s := by rw [Binds, hp]; trivial
  have howns := ((hI.good s).bound hb).2.2.2
  have hf : KeepsNode (heartbeatNode now (w.hub.sessions s) msg) :=
    ⟨fun _ => rfl, fun _ => rfl, fun _ => rfl⟩
  exact step_bound hI hb (sameIds_setDb ..) (howns.frame_node hI.wf hf)
    (howns.updateNode hf) fun _ => trivial

lemma step_beatChannel {msg : HeartbeatMessage} (hp : w.phase s = .beating msg) :
    Keeps w s (w.goto s (w.hub.setDb (w.hub.db.updateChannel (w.hub.sessions s).channelId
      (heartbeatChannel (w.hub.sessions s) msg))) (.beaten msg)) := by
  have hb : Binds w s := by rw [Binds, hp]; trivial
  have howns := ((hI.good s).bound hb).2.2.2
  exact step_bound hI hb (sameIds_setDb ..)
    (howns.frame_channel hI.wf (keepsChannel_heartbeat _ _)) howns fun _ => trivial

lemma step_beatSession {msg : HeartbeatMessage} (hp : w.phase s = .beaten msg) :
    Keeps w s (w.goto s (w.hub.updateSession s (heartbeatSession msg)) .registered) := by
  have hb : Binds w s := by rw [Binds, hp]; trivial
  have howns := ((hI.good s).bound hb).2.2.2
  refine step_bound hI hb ⟨rfl, rfl, fun _ hne => State.updateSession_ne hne, ?_, ?_, ?_⟩
    (.refl hI.wf) howns fun _ => trivial <;> rw [State.updateSession_self] <;> rfl

lemma step_syncRead (hp : w.phase s = .registered) (dir : Directory)
    (msg : ModelsSyncMessage) : Keeps w s (Lifecycle.syncRead w s dir msg) := by
  have hb : Binds w s := by rw [Binds, hp]; trivial
  unfold Lifecycle.syncRead
  split
  · exact step_bound_quiet hI hb id
  split
  · exact step_bound_quiet hI hb id
  · exact step_bound_quiet hI hb fun _ => trivial

lemma step_syncCommit {models : List String} {group hardwareInfo : String}
    {msg : ModelsSyncMessage} (hp : w.phase s = .syncing models group hardwareInfo msg) (now : ℤ) :
    Keeps w s (syncCommit w s now models group hardwareInfo msg) := by
  have hb : Binds w s := by rw [Binds, hp]; trivial
  have howns := ((hI.good s).bound hb).2.2.2
  unfold syncCommit
  split
  · exact step_bound_quiet hI hb id
  next db hwrite =>
  obtain ⟨groups, rfl⟩ := syncWrite_ok hwrite
  have hf : KeepsNode (syncNode now models hardwareInfo) :=
    ⟨fun _ => rfl, fun _ => rfl, fun _ => rfl⟩
  have hnode := howns.frame_node hI.wf hf
  have hgroups := hnode.trans (frame_setGroups hnode.wf groups)
  have howns' := howns.updateNode hf
  refine step_bound hI hb ⟨rfl, rfl, fun _ hne => State.updateSession_ne hne, ?_, ?_, ?_⟩
    (hgroups.trans (Owns.frame_channel hgroups.wf howns' (keepsChannel_sync _ _ _))) howns'
    (fun _ => trivial) <;> rw [State.setDb_sessions, State.updateSession_self] <;> rfl

lemma step_cleanupRead (hp : w.phase s = .ending) : Keeps w s (Lifecycle.cleanupRead w s) := by
  unfold Lifecycle.cleanupRead
  dsimp only
  by_cases hw : (w.hub.sessions s).workerId = 0
  · rw [if_pos (Or.inl hw)]
    refine step_unbound_quiet hI ?_ (by simp [hp]) (Or.inr rfl)
    rw [Holds, hp]
    exact fun h => h.elim False.elim fun h => h hw
  · have hb : Binds w s := by rw [Binds, hp]; exact hw
    split_ifs
    · exact step_bound_quiet hI hb id
    split
    · exact step_bound_quiet hI hb fun _ => trivial
    · exact step_bound_quiet hI hb id

lemma step_cleanupWrite (hp : w.phase s = .cleaning) (now : ℤ) :
    Keeps w s (w.goto s (w.hub.setDb (cleanupWrite now w.hub.db (w.hub.sessions s))) .cleaned) := by
  have hb : Binds w s := by rw [Binds, hp]; trivial
  have howns := ((hI.good s).bound hb).2.2.2
  have hf : KeepsNode (offlineNode now) := ⟨fun _ => rfl, fun _ => rfl, fun _ => rfl⟩
  have hnode := howns.frame_node hI.wf hf
  have howns' := howns.updateNode hf
  exact step_bound hI hb (sameIds_setDb ..)
    (hnode.trans (howns'.frame_channel hnode.wf keepsChannel_disabled)) howns' id

lemma inv_step {a : Act} (h : step w a = some w') : Keeps w a.actor w' := by
  unfold step at h
  split at h
  any_goals obtain rfl := Option.some.inj h
  · next s msg hp => exact step_claim hI hp msg
  · next s dir msg hp => exact step_load hI hp dir
  · next s now msg plan snap hp => exact step_commit hI hp now
  · next s result limit hp => exact step_bind hI hp
  · next s hp =>
    -- the registration failed before anything was bound
    have hp' : w.phase s = .failed := hp
    obtain ⟨hw, hc⟩ := (hI.good s).unbound (by rw [hp']; exact id) (by simp [hp'])
    exact step_release hI (by simp) (fun h => h.elim False.elim fun h => h hw) fun _ => ⟨hw, hc⟩
  · next s now msg hp => exact step_beatNode hI hp now msg
  · next s msg hp => exact step_beatChannel hI hp
  · next s msg hp => exact step_beatSession hI hp
  · next s dir msg hp => exact step_syncRead hI hp dir msg
  · next s now models group hardwareInfo msg hp => exact step_syncCommit hI hp now
  · next s hp =>
    have hp' : w.phase s = .fresh := hp
    have hnot : ¬ Holds w s := by rw [Holds, hp']; exact fun h => h.elim id id
    exact step_unbound_quiet hI hnot (by simp [hp']) (Or.inl rfl)
  · next s hp =>
    have hp' : w.phase s = .registered := hp
    have hb : Binds w s := by rw [Binds, hp']; trivial
    exact step_bound_quiet hI hb id
  · next s hp => exact step_cleanupRead hI hp
  · next s now hp => exact step_cleanupWrite hI hp now
  · exact step_release hI (by simp) (fun h => h.elim False.elim False.elim) fun h => absurd rfl h
  · exact nomatch h

end

/-! ### What follows -/

def Registered (w : World) (s : ℕ) : Prop :=
  match w.phase s with
  | .registered | .beating _ | .beaten _ | .syncing .. => True
  | .ending => (w.hub.sessions s).workerId ≠ 0
  | _ => False

structure Untouched (w w' : World) (s : ℕ) : Prop where
  session : w'.hub.sessions s = w.hub.sessions s
  byNamespace : w'.hub.byNamespace (w.hub.sessions s).ns = some s
  byChannelId : w'.hub.byChannelId (w.hub.sessions s).channelId = some s
  node : w'.hub.db.node? (w.hub.sessions s).workerId = w.hub.db.node? (w.hub.sessions s).workerId
  channel : w'.hub.db.channel? (w.hub.sessions s).channelId =
    w.hub.db.channel? (w.hub.sessions s).channelId

/-- A namespace is that of at most one live session, and no other session touches a registered one.
-/
structure Safe (w : World) : Prop where
  namespaces : ∀ ns s, w.hub.byNamespace ns = some s →
    (w.hub.sessions s).ns = ns ∧ w.released s = false
  channels : ∀ c s, w.hub.byChannelId c = some s →
    (w.hub.sessions s).channelId = c ∧ w.released s = false
  unique : ∀ s s', w.released s = false → w.released s' = false → (w.hub.sessions s).ns ≠ "" →
    (w.hub.sessions s).ns = (w.hub.sessions s').ns → s = s'
  untouched : ∀ s, Registered w s → ∀ a w', a.actor ≠ s → step w a = some w' → Untouched w w' s

lemma bound_of_registered (h : Registered w s) : Binds w s := by
  unfold Registered at h
  split at h <;> first | exact h.elim | (next hp => rw [Binds, hp]; exact h)

lemma untouched_of_moves (hI : Inv w) (hm : Moves w w' s') (hI' : Inv w') (hne : s' ≠ s)
    (hb : Binds w s) : Untouched w w' s := by
  have hgood := good_of_moves hI hm hne.symm
  rw [hm.phase s hne.symm] at hgood
  have hsession := hm.sessions s hne.symm
  have hb' : Bound (w'.hub.sessions s).workerId (w.phase s) := by rw [hsession]; exact hb
  have hns := (hgood.holds (Or.inr hb')).1
  obtain ⟨hch, -⟩ := hgood.bound hb'
  obtain ⟨n, hn, hid, hnns, hnch⟩ := ((hI.good s).bound hb).2.2.2
  rw [hsession] at hns hch
  -- the rows are those of another namespace than the one that moved
  have hrows : w'.hub.db = w.hub.db ∨ ∃ ns, n.ns ≠ ns ∧ Frame ns w.hub.db w'.hub.db := by
    rcases hm.db with h | ⟨h, hf⟩
    · exact Or.inl h
    · refine Or.inr ⟨_, ?_, hf⟩
      rw [hnns]
      exact hI.ns_ne h (Or.inr hb) hne.symm
  refine ⟨hsession, hns, hch, ?_, ?_⟩
  · rcases hrows with h | ⟨ns, hnsne, hf⟩
    · rw [h]
    · rw [← hid, Db.node?, Db.node?, lookup_of_mem hI.wf.nodeIds hn,
        lookup_of_mem hI'.wf.nodeIds ((hf.nodes n hnsne).mpr hn)]
  · rcases hrows with h | ⟨ns, hnsne, hf⟩
    · rw [h]
    · rw [← hnch]
      exact hf.channels n hn hnsne

lemma safe_of_inv (hI : Inv w) : Safe w where
  namespaces := fun ns s h => by
    obtain ⟨hhold, hns⟩ := hI.nsMap ns s h
    exact ⟨hns, ((hI.good s).holds hhold).2.2⟩
  channels := fun c s h => by
    obtain ⟨hbound, hc⟩ := hI.chMap c s h
    exact ⟨hc, ((hI.good s).holds (Or.inr hbound)).2.2⟩
  unique := fun s s' hr hr' hns he => by
    by_contra hne
    refine hI.ns_ne ((hI.good s).live hr hns) ((hI.good s').live hr' ?_) (Ne.symm hne) he.symm
    rw [← he]
    exact hns
  untouched := fun s hreg a w' hne h => by
    obtain ⟨hm, hI'⟩ := inv_step hI h
    exact untouched_of_moves hI hm hI' hne (bound_of_registered hreg)

end

/-- **Ownership**: every interleaving from a well-formed database leads to a safe state. -/
theorem ownership (db : Db) (hdb : WellFormed db) (users : ℕ → ℤ) (acts : List Act) (w : World)
    (h : run step (init db users) acts = some w) : Safe w :=
  safe_of_inv (run_invariant' (fun hI hs => (inv_step hI hs).2) (inv_init hdb users) h)

def emptyDb : Db := ⟨[], [], [], 1, 1⟩

def registration : RegisterMessage := ⟨"w", "", "", ["m"], none, "", 0⟩

def directory : Directory := ⟨fun _ => .ok "default", fun _ => .ok []⟩

/-- Another session claims the namespace of a registered one, fails and is torn down. -/
def reconnect : List Act :=
  [.claim 0 registration, .load 0 directory, .commit 0 5, .bind 0, .claim 1 registration,
    .beatNode 0 6 ⟨1, "", none, [], 0⟩, .cleanupRead 1, .beatChannel 0, .release 1, .beatSession 0]

theorem ownership_reconnect :
    ∃ w, run step (init emptyDb fun _ => 7) reconnect = some w ∧ Safe w := by
  have hsome : (run step (init emptyDb fun _ => 7) reconnect).isSome = true := by decide
  obtain ⟨w, hw⟩ := Option.isSome_iff_exists.mp hsome
  refine ⟨w, hw, ownership emptyDb ?_ _ _ w hw⟩
  constructor <;> simp [emptyDb, Keyed]

end Tokilake.Hub.Ownership
