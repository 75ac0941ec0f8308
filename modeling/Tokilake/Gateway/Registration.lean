import Tokilake.Gateway.Control

/-! # One session for each namespace

The session manager never gives a namespace to a second session, but the handlers answer
`register_ok` whatever it says.

* `register_iff`: when an accepted worker is the owner of its namespace. -/

namespace Tokilake.Gateway.Registration

open Lib Gateway.Registry Gateway.Control List Option

/-! ### Live sessions and their namespaces -/

variable {ρ : Type} {b : Backend ρ} {s t : State ρ} {id : ℕ}
    {session session' : Session} {ns : String}

@[simp] lemma setSession_self (s : State ρ) (id : ℕ) (session : Option Session) :
    (s.setSession id session).sessions id = session := Function.update_self ..

lemma setSession_ne (s : State ρ) (session : Option Session) {j : ℕ} (h : j ≠ id) :
    (s.setSession id session).sessions j = s.sessions j := Function.update_of_ne h ..

structure SessionOk (session : Session) : Prop where
  working : ∀ h, session.handler = some h →
    session.registered = true ∧ session.answered = none ∧ h.req.ns ≠ "" ∧
      (h.phase = .bound → ∃ info, session.info = some info ∧ info.ns = h.req.ns)
  done : ∀ ns, session.answered = some ns →
    session.registered = true ∧ ns ≠ "" ∧ ∃ info, session.info = some info ∧ info.ns = ns

structure Wf (s : State ρ) : Prop where
  fresh : ∀ id, s.nextId ≤ id → s.sessions id = none
  sessions : ∀ id session, s.sessions id = some session → SessionOk session
  holder : ∀ ns id, s.byNamespace.lookup ns = some id → s.Answered id ns

lemma answered_setSession (h : s.sessions id = some session)
    (hsame : session'.answered = session.answered) (j : ℕ) (ns : String) :
    (s.setSession id (some session')).Answered j ns ↔ s.Answered j ns := by
  unfold State.Answered
  by_cases hj : j = id
  · subst hj
    simp [h, hsame]
  · simp [setSession_ne s _ hj]

lemma Wf.lt_nextId (hwf : Wf s) (h : s.sessions id = some session) : id < s.nextId := by
  by_contra hge
  rw [hwf.fresh id (by omega)] at h
  cases h

lemma Wf.fresh_setSession (hwf : Wf s) (h : s.sessions id = some session) (new : Option Session)
    (j : ℕ) (hj : s.nextId ≤ j) : (s.setSession id new).sessions j = none := by
  have hlt := hwf.lt_nextId h
  rw [setSession_ne s new (by omega)]
  exact hwf.fresh j hj

lemma Wf.sessions_setSession (hwf : Wf s) (hok : SessionOk session') (j : ℕ) (other : Session)
    (hother : (s.setSession id (some session')).sessions j = some other) : SessionOk other := by
  by_cases hj : j = id
  · subst hj
    rw [setSession_self] at hother
    cases hother
    exact hok
  · rw [setSession_ne s _ hj] at hother
    exact hwf.sessions j other hother

lemma sessionOk_of_handler {h : Handler} (hhandler : session.handler = some h)
    (hreg : session.registered = true) (hnone : session.answered = none) (hns : h.req.ns ≠ "")
    (hinfo : h.phase = .bound → ∃ info, session.info = some info ∧ info.ns = h.req.ns) :
    SessionOk session := by
  refine ⟨fun h' hh' => ?_, fun ns hans => ?_⟩
  · cases hhandler.symm.trans hh'
    exact ⟨hreg, hnone, hns, hinfo⟩
  · rw [hnone] at hans
    cases hans

variable {p : Session × Handler}

lemma working_eq_some {phase : Phase} (h : s.working id phase = some p) :
    s.sessions id = some p.1 ∧ p.1.handler = some p.2 ∧ p.2.phase = phase := by
  obtain ⟨session, hsession, h⟩ := bind_eq_some_iff.mp h
  obtain ⟨handler, hhandler, h⟩ := bind_eq_some_iff.mp h
  split_ifs at h with hphase
  cases h
  exact ⟨hsession, hhandler, hphase⟩

/-! ### Steps that promise nothing -/

/-- Namespaces and answered sessions are as before, and there is at most a reply with an error. -/
structure Quiet (s t : State ρ) : Prop where
  namespaces : t.byNamespace = s.byNamespace
  answered : ∀ id ns, t.Answered id ns ↔ s.Answered id ns
  answers : t.answers = s.answers ∨
    ∃ answer : Answer, t.answers = s.answers ++ [answer] ∧ answer.reply.isError = true

lemma quiet_setSession (hwf : Wf s) (h : s.sessions id = some session) {store : ρ} {byChannelId}
    (ht : t = { s.setSession id (some session') with store, byChannelId })
    (hsame : session'.answered = session.answered) (hok : SessionOk session') :
    Wf t ∧ Quiet s t := by
  subst ht
  exact ⟨⟨hwf.fresh_setSession h _, hwf.sessions_setSession hok,
    fun ns j hj => (answered_setSession h hsame j ns).mpr (hwf.holder ns j hj)⟩,
    rfl, answered_setSession h hsame, .inl rfl⟩

lemma receive_cases (b : Backend ρ) (s : State ρ) (id : ℕ) (session : Session)
    (req : Option RegisterRequest) : (∃ contested reply, reply.isError = true ∧
      s.receive b id session req = s.reply id contested reply) ∨ s.receive b id session req = s ∨
    ∃ store r channelId contested, session.registered = false ∧ r.ns ≠ "" ∧
      s.receive b id session req = { s.setSession id (some { session with
        registered := true
        handler := some ⟨r, .started, channelId, contested⟩ }) with store := store } := by
  unfold State.receive
  by_cases hauth : session.authenticated = false
  · exact .inl ⟨_, .error "not_authenticated" b.authText, rfl, if_pos hauth⟩
  simp only [if_neg hauth]
  by_cases hreg : session.registered = true
  · exact .inl ⟨_, .error "register_already_completed" b.againText, rfl, if_pos hreg⟩
  simp only [if_neg hreg]
  cases req with
  | none =>
    cases hmissing : b.missing with
    | none => exact .inr (.inl rfl)
    | some reply => exact .inl ⟨_, reply, b.missing_error reply hmissing, rfl⟩
  | some r =>
    dsimp only
    cases hstart : b.start s.store r with
    | error reply => exact .inl ⟨_, reply, b.start_error _ _ _ hstart, rfl⟩
    | ok started =>
      refine .inr (.inr ⟨started.1, r, started.2, _, by simpa using hreg, ?_, rfl⟩)
      exact b.start_named _ _ _ hstart

lemma receive_quiet (hwf : Wf s) (h : s.sessions id = some session)
    (req : Option RegisterRequest) :
    Wf (s.receive b id session req) ∧ Quiet s (s.receive b id session req) := by
  rcases receive_cases b s id session req with
    ⟨contested, reply, herr, heq⟩ | heq | ⟨store, r, channelId, contested, hreg, hns, heq⟩
  · rw [heq]
    exact ⟨⟨hwf.fresh, hwf.sessions, hwf.holder⟩, rfl, fun _ _ => Iff.rfl, .inr ⟨_, rfl, herr⟩⟩
  · rw [heq]
    exact ⟨hwf, rfl, fun _ _ => Iff.rfl, .inl rfl⟩
  · have hnone : session.answered = none := by
      cases hans : session.answered with
      | none => rfl
      | some ns =>
        have hdone := ((hwf.sessions id session h).done ns hans).1
        rw [hreg] at hdone
        cases hdone
    exact quiet_setSession hwf h heq rfl (sessionOk_of_handler rfl rfl hnone hns (by simp))

def Plain : Label ρ → Prop
  | .claim _ => False
  | .release _ => False
  | _ => True

variable {label : Label ρ}

lemma plain_step (hwf : Wf s) (hplain : Plain label) (hstep : step b s label = some t) :
    Wf t ∧ Quiet s t := by
  cases label with
  | connect authenticated =>
    cases hstep
    have hnone := hwf.fresh s.nextId (Nat.le_refl _)
    have hsame : ∀ j ns, (s.setSession s.nextId (some { authenticated })).Answered j ns ↔
        s.Answered j ns := by
      intro j ns
      unfold State.Answered
      by_cases hj : j = s.nextId
      · subst hj
        simp [hnone]
      · simp [setSession_ne s _ hj]
    have hok : SessionOk { authenticated } := by
      constructor
      · rintro h ⟨⟩
      · rintro ns ⟨⟩
    refine ⟨⟨fun j hj => ?_, hwf.sessions_setSession hok,
      fun ns j hj => (hsame j ns).mpr (hwf.holder ns j hj)⟩, rfl, hsame, .inl rfl⟩
    have hlt : s.nextId + 1 ≤ j := hj
    have hj' := setSession_ne s (some { authenticated }) (by omega : j ≠ s.nextId)
    exact hj'.trans (hwf.fresh j (by omega))
  | auth id =>
    obtain ⟨session, h, rfl⟩ := map_eq_some_iff.mp hstep
    have hold := hwf.sessions id session h
    exact quiet_setSession hwf h rfl (by rfl) ⟨hold.working, hold.done⟩
  | register id req =>
    obtain ⟨session, h, hrec⟩ := bind_eq_some_iff.mp hstep
    split_ifs at hrec
    cases hrec
    exact receive_quiet hwf h req
  | store id =>
    obtain ⟨p, hp, rfl⟩ := map_eq_some_iff.mp hstep
    obtain ⟨h, hhandler, -⟩ := working_eq_some hp
    obtain ⟨hreg, hans, hns, -⟩ := (hwf.sessions id p.1 h).working p.2 hhandler
    exact quiet_setSession hwf h rfl (by rfl) (sessionOk_of_handler rfl hreg hans hns (by simp))
  | bind id =>
    obtain ⟨p, hp, rfl⟩ := map_eq_some_iff.mp hstep
    obtain ⟨h, hhandler, -⟩ := working_eq_some hp
    obtain ⟨hreg, hans, hns, -⟩ := (hwf.sessions id p.1 h).working p.2 hhandler
    refine quiet_setSession hwf h rfl (by rfl) ?_
    exact sessionOk_of_handler rfl hreg hans hns fun _ => ⟨_, rfl, rfl⟩
  | claim id | release id => exact hplain.elim
  | outside store =>
    cases hstep
    exact ⟨⟨hwf.fresh, hwf.sessions, hwf.holder⟩, rfl, fun _ _ => Iff.rfl, .inl rfl⟩

/-! ### Claims and releases -/

lemma lookup_claim (m : Entries String) (id : ℕ) (ns k : String) :
    ((claimNamespace m id ns).toOption.getD m).lookup k =
      if k = ns then some ((m.lookup ns).getD id) else m.lookup k := by
  unfold claimNamespace
  cases hns : m.lookup ns with
  | some holder =>
    have hsame : ((if holder ≠ id then .error "namespace already connected" else .ok m :
        Except String (Entries String)).toOption.getD m) = m := by
      split_ifs <;> rfl
    simp only [hsame]
    by_cases hk : k = ns
    · rw [hk, if_pos rfl, hns, getD_some]
    · rw [if_neg hk]
  | none =>
    by_cases hk : k = ns
    · rw [hk, if_pos rfl]
      exact AList.lookup_insert _
    · rw [if_neg hk]
      exact AList.lookup_insert_ne hk

lemma lookup_releaseEntry (m : Entries String) (id : ℕ) (ns k : String) :
    (releaseEntry m id ns).lookup k =
      if k = ns ∧ m.lookup ns = some id then none else m.lookup k := by
  unfold releaseEntry
  by_cases hid : m.lookup ns = some id
  · rw [if_pos hid]
    by_cases hk : k = ns
    · rw [hk, if_pos ⟨rfl, hid⟩, AList.lookup_erase]
    · rw [if_neg (by simp [hk]), AList.lookup_erase_ne hk]
  · rw [if_neg hid, if_neg (by simp [hid])]

lemma lookup_releaseNamespace (m : Entries String) (id : ℕ) (info : Option WorkerInfo)
    (k : String) : (releaseNamespace m id info).lookup k =
      if m.lookup k = some id ∧ k ≠ "" ∧ info.map WorkerInfo.ns = some k then none
      else m.lookup k := by
  cases info with
  | none => simp [releaseNamespace]
  | some info =>
    rw [releaseNamespace]
    by_cases hne : info.ns = ""
    · rw [if_neg (by simpa using hne), if_neg]
      rintro ⟨-, hk, heq⟩
      exact hk ((some.inj heq).symm.trans hne)
    rw [if_pos hne, lookup_releaseEntry]
    by_cases hk : k = info.ns
    · subst hk
      simp [hne]
    · rw [if_neg (by simp [hk]), if_neg (by simp [Ne.symm hk])]

lemma lookup_releaseNamespace_iff (hwf : Wf s) (h : s.sessions id = some session) {k : String}
    {j : ℕ} : (releaseNamespace s.byNamespace id session.info).lookup k = some j ↔
      s.byNamespace.lookup k = some j ∧ j ≠ id := by
  rw [lookup_releaseNamespace]
  split_ifs with hown
  · rw [hown.1]
    simp [eq_comm]
  refine ⟨fun hj => ⟨hj, ?_⟩, And.left⟩
  -- what the session has is the namespace it was bound with
  rintro rfl
  obtain ⟨other, hother, hans⟩ := hwf.holder k j hj
  rw [h] at hother
  cases hother
  obtain ⟨-, hne, info, hinfo, rfl⟩ := (hwf.sessions j session h).done k hans
  exact hown ⟨hj, hne, by rw [hinfo]; rfl⟩

lemma answered_release (s : State ρ) (id j : ℕ) (ns : String) :
    (s.setSession id none).Answered j ns ↔ s.Answered j ns ∧ j ≠ id := by
  unfold State.Answered
  by_cases hj : j = id
  · subst hj
    simp
  · simp [setSession_ne s none hj, hj]

lemma not_answered_of_working (hwf : Wf s) {phase : Phase} (hp : s.working id phase = some p)
    (ns : String) : ¬ s.Answered id ns := by
  obtain ⟨h, hhandler, -⟩ := working_eq_some hp
  rintro ⟨session, hsession, hans⟩
  rw [h] at hsession
  cases hsession
  rw [((hwf.sessions id p.1 h).working p.2 hhandler).2.1] at hans
  cases hans

structure Claimed (s : State ρ) (id : ℕ) (p : Session × Handler) (t : State ρ) : Prop where
  lookup : ∀ k, t.byNamespace.lookup k =
    if k = p.2.req.ns then some ((s.byNamespace.lookup p.2.req.ns).getD id)
    else s.byNamespace.lookup k
  answered : ∀ j ns, t.Answered j ns ↔ (j = id ∧ ns = p.2.req.ns) ∨ s.Answered j ns
  answers : ∃ message workerId channelId, t.answers =
    s.answers ++ [⟨id, p.2.contested, .ack message p.2.req.ns workerId channelId⟩]

lemma claim_spec (hwf : Wf s) (hstep : step b s (.claim id) = some t) :
    ∃ p, s.working id .bound = some p ∧ Claimed s id p t := by
  obtain ⟨p, hp, rfl⟩ := map_eq_some_iff.mp hstep
  refine ⟨p, hp, lookup_claim _ _ _, fun j ns => ?_, _, _, _, rfl⟩
  have hnew : (s.setSession id (some { p.1 with
      handler := none, answered := some p.2.req.ns })).Answered j ns ↔
        (j = id ∧ ns = p.2.req.ns) ∨ s.Answered j ns := by
    by_cases hj : j = id
    · subst hj
      rw [or_iff_left (not_answered_of_working hwf hp ns)]
      simp [State.Answered, eq_comm]
    · simp [State.Answered, setSession_ne s _ hj, hj]
  exact hnew

lemma wf_step (hwf : Wf s) (hstep : step b s label = some t) : Wf t := by
  have hplain : Plain label → Wf t := fun hl => (plain_step hwf hl hstep).1
  cases label with
  | claim id =>
    obtain ⟨p, hp, hclaim⟩ := claim_spec hwf hstep
    have hholder : ∀ ns j, t.byNamespace.lookup ns = some j → t.Answered j ns := by
      intro ns j hj
      rw [hclaim.lookup] at hj
      rw [hclaim.answered]
      split_ifs at hj with hns
      · rw [some.injEq] at hj
        cases hold : s.byNamespace.lookup p.2.req.ns with
        | none =>
          rw [hold, getD_none] at hj
          exact .inl ⟨hj.symm, hns⟩
        | some holder =>
          rw [hold, getD_some] at hj
          subst hj hns
          exact .inr (hwf.holder _ _ hold)
      · exact .inr (hwf.holder ns j hj)
    obtain ⟨h, hhandler, hphase⟩ := working_eq_some hp
    obtain ⟨hreg, -, hns, hinfo⟩ := (hwf.sessions id p.1 h).working p.2 hhandler
    have hok : SessionOk { p.1 with handler := none, answered := some p.2.req.ns } := by
      constructor
      · rintro h ⟨⟩
      · rintro ns ⟨⟩
        exact ⟨hreg, hns, hinfo hphase⟩
    obtain ⟨q, hq, rfl⟩ := map_eq_some_iff.mp hstep
    obtain rfl := some.inj (hp.symm.trans hq)
    exact ⟨hwf.fresh_setSession h _, hwf.sessions_setSession hok, hholder⟩
  | release id =>
    obtain ⟨session, h, hrel⟩ := bind_eq_some_iff.mp hstep
    split_ifs at hrel
    cases hrel
    refine ⟨hwf.fresh_setSession h none, fun j other hother => ?_, fun ns j hj => ?_⟩
    · have hne : j ≠ id := by
        rintro rfl
        cases (setSession_self s j none).symm.trans hother
      exact hwf.sessions j other ((setSession_ne s none hne).symm.trans hother)
    · obtain ⟨hold, hne⟩ := (lookup_releaseNamespace_iff hwf h).mp hj
      exact (answered_release s id j ns).mpr ⟨hwf.holder ns j hold, hne⟩
  | _ => exact hplain trivial

/-! ### Steps and promises -/

lemma kept_of_quiet (h : Kept s) (hquiet : Quiet s t) : Kept t := by
  refine ⟨fun id ns hans => ?_, fun answer hmem hcontested => ?_⟩
  · rw [State.getByNamespace, hquiet.namespaces]
    exact h.returned id ns ((hquiet.answered id ns).mp hans)
  · rcases hquiet.answers with heq | ⟨new, heq, herr⟩
    · exact h.refused answer (heq ▸ hmem) hcontested
    rw [heq, mem_append, mem_singleton] at hmem
    rcases hmem with hmem | rfl
    · exact h.refused answer hmem hcontested
    · exact herr

lemma held_eq_false_iff (hwf : Wf s) (hp : s.working id .bound = some p) :
    s.held id ns = false ↔ s.byNamespace.lookup ns = none := by
  unfold State.held
  cases hlook : s.byNamespace.lookup ns with
  | none => simp
  | some holder =>
    have hans := hwf.holder ns holder hlook
    have hne : holder ≠ id := by
      rintro rfl
      exact not_answered_of_working hwf hp ns hans
    obtain ⟨session, hsession, -⟩ := hans
    simp [hne, hsession]

lemma kept_claim (hwf : Wf s) (h : Kept s) (hp : s.working id .bound = some p)
    (hclaim : Claimed s id p t) :
    Kept t ↔ p.2.contested = false ∧ s.held id p.2.req.ns = false := by
  obtain ⟨message, workerId, channelId, hanswers⟩ := hclaim.answers
  rw [held_eq_false_iff hwf hp]
  constructor
  · intro hkept
    constructor
    · by_contra hcontested
      have herr := hkept.refused _ (hanswers ▸ mem_append_right _ (mem_singleton_self _))
        (by simpa using hcontested)
      cases herr
    · have hown : t.byNamespace.lookup p.2.req.ns = some id :=
        hkept.returned id p.2.req.ns ((hclaim.answered _ _).mpr (.inl ⟨rfl, rfl⟩))
      rw [hclaim.lookup, if_pos rfl, some.injEq] at hown
      cases hold : s.byNamespace.lookup p.2.req.ns with
      | none => rfl
      | some holder =>
        rw [hold, getD_some] at hown
        subst hown
        exact absurd (hwf.holder _ _ hold) (not_answered_of_working hwf hp _)
  · rintro ⟨hcontested, hfree⟩
    refine ⟨fun j ns hans => ?_, fun answer hmem hc => ?_⟩
    · rw [State.getByNamespace, hclaim.lookup]
      rcases (hclaim.answered j ns).mp hans with ⟨rfl, rfl⟩ | hans
      · rw [if_pos rfl, hfree, getD_none]
      have hold : s.byNamespace.lookup ns = some j := h.returned j ns hans
      have hne : ns ≠ p.2.req.ns := by
        rintro rfl
        rw [hold] at hfree
        cases hfree
      rw [if_neg hne, hold]
    · rw [hanswers, mem_append, mem_singleton] at hmem
      rcases hmem with hmem | rfl
      · exact h.refused answer hmem hc
      · rw [hcontested] at hc
        cases hc

lemma kept_step (hwf : Wf s) (h : Kept s) (hstep : step b s label = some t) :
    Kept t ↔ Free s label := by
  have hplain : Plain label → Kept t := fun hl => kept_of_quiet h (plain_step hwf hl hstep).2
  cases label with
  | claim id =>
    obtain ⟨p, hp, hclaim⟩ := claim_spec hwf hstep
    rw [kept_claim hwf h hp hclaim]
    refine ⟨fun hfree q hq => ?_, fun hfree => hfree p hp⟩
    obtain rfl := some.inj (hp.symm.trans hq)
    exact hfree
  | release id =>
    refine iff_of_true ?_ trivial
    obtain ⟨session, hsession, hrel⟩ := bind_eq_some_iff.mp hstep
    split_ifs at hrel
    cases hrel
    refine ⟨fun j ns hans => ?_, h.refused⟩
    obtain ⟨hold, hne⟩ := (answered_release s id j ns).mp hans
    exact (lookup_releaseNamespace_iff hwf hsession).mpr ⟨h.returned j ns hold, hne⟩
  | _ => exact iff_of_true (hplain trivial) trivial

/-! ### Whole runs -/

lemma wf_init (store : ρ) : Wf (init store) :=
  ⟨fun _ _ => rfl, fun _ _ h => (by cases h), fun _ _ h => (by cases h)⟩

lemma kept_init (store : ρ) : Kept (init store) :=
  ⟨fun _ _ ⟨_, h, _⟩ => (by cases h), fun _ h => (by cases h)⟩

lemma free_of_disabled (h : step b s label = none) : Free s label := by
  cases label with
  | claim id =>
    intro p hp
    rw [step, hp] at h
    cases h
  | _ => trivial

lemma unchanged_of_error {answer : Answer} (hstep : step b s label = some t)
    (hnew : t.answers = s.answers ++ [answer]) (herr : answer.reply.isError = true) :
    t = { s with answers := s.answers ++ [answer] } := by
  -- the other steps add no reply
  have hsame : t.answers ≠ s.answers := by
    rw [hnew]
    simp
  cases label with
  | connect authenticated | outside store => cases hstep; exact absurd rfl hsame
  | auth id =>
    obtain ⟨session, -, rfl⟩ := map_eq_some_iff.mp hstep
    exact absurd rfl hsame
  | register id req =>
    obtain ⟨session, -, hrec⟩ := bind_eq_some_iff.mp hstep
    split_ifs at hrec
    cases hrec
    rcases receive_cases b s id session req with
      ⟨contested, reply, -, heq⟩ | heq | ⟨store, r, channelId, contested, -, -, heq⟩
    · rw [heq] at hnew ⊢
      rw [← hnew]
      rfl
    · exact absurd (by rw [heq]) hsame
    · exact absurd (by rw [heq]; rfl) hsame
  | store id | bind id =>
    obtain ⟨p, -, rfl⟩ := map_eq_some_iff.mp hstep
    exact absurd rfl hsame
  | claim id =>
    obtain ⟨p, -, rfl⟩ := map_eq_some_iff.mp hstep
    obtain ⟨-, heq⟩ := append_inj' hnew rfl
    cases heq
    cases herr
  | release id =>
    obtain ⟨session, -, hrel⟩ := bind_eq_some_iff.mp hstep
    split_ifs at hrel
    cases hrel
    exact absurd rfl hsame

/-- **When registrations are safe**: every claim is for a namespace that no other session had. -/
theorem register_iff (b : Backend ρ) (store : ρ) (labels : List (Label ρ)) :
    (Run.Stays (step b) Kept (init store) labels ↔ Run.Along (step b) Free (init store) labels) ∧
    ∀ (s t : State ρ) (label : Label ρ) (answer : Answer), step b s label = some t →
      t.answers = s.answers ++ [answer] → answer.reply.isError = true →
      t = { s with answers := s.answers ++ [answer] } :=
  ⟨Run.stays_iff_along_of_invariant free_of_disabled wf_step kept_step (wf_init store)
      (kept_init store), fun _ _ _ _ => unchanged_of_error⟩

def twice : List (Label ρ) :=
  [.connect true, .connect true, .register 1 (some { ns := "a" }), .store 1, .bind 1, .claim 1,
    .register 2 (some { ns := "a" }), .store 2, .bind 2, .claim 2]

/-- Both handlers tell the second session `register_ok`, though the namespace belongs to the first.
-/
theorem second_register : (Run.run (step api) (init ChannelIndex.new) twice).map (fun s =>
      (s.answers, s.getByNamespace "a", s.getByChannelId 2, s.store.channelCount)) =
      some ([⟨1, false, .ack "register_ok" "a" 1 1⟩, ⟨2, true, .ack "register_ok" "a" 2 2⟩], some 1,
        some 2, 2) ∧ (Run.run (step server) (init {}) twice).map (fun s =>
      (s.answers, s.getByNamespace "a", s.getByChannelId 2, s.store.table.entries.entries.length)) =
      some ([⟨1, false, .ack "register_ok" "a" 1 1⟩, ⟨2, true, .ack "register_ok" "a" 2 2⟩], some 1,
        some 2, 2) := by
  decide

end Tokilake.Gateway.Registration
