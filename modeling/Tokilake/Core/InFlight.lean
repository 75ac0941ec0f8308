import Tokilake.Lib.Calls
import Tokilake.Lib.Text

/-! # Requests in flight

The session manager keeps the tunnel requests under way in a table that all sessions share, by an id
that may come from the caller.  Every critical section and every call of a `Cancel` is one step.

* `entries_live`: each entry belongs to a request under way;
* `inFlight_iff`: when the table has all requests, and a disconnect cancels them. -/

namespace Tokilake.Core.InFlight

open Lib.Run Lib.Calls Lib.Text List Option

/-! ### Calls and releases -/

structure InFlightRequest where
  requestId : String
  sessionId : ℕ
  cancel : ℕ
  deriving DecidableEq

/-- The table, and as histories the sessions released and the calls whose `Cancel` was called. -/
structure Manager where
  requests : List InFlightRequest := []
  released : List ℕ := []
  cancelled : List ℕ := []
  deriving DecidableEq

inductive Phase
  | opening
  | refused
  | tracking
  | writing
  | untracking
  | cancelling
  | reading
  | pumping
  | cleaning
  | removing
  | ended
  deriving DecidableEq

def Phase.held : Phase → Bool
  | .writing | .untracking | .reading | .pumping | .cleaning | .removing => true
  | _ => false

@[simp] def Phase.tracked : Phase → Bool
  | .opening | .refused | .tracking => false
  | _ => true

def Phase.isOver : Phase → Bool
  | .removing | .ended => true
  | _ => false

structure Call where
  sessionId : ℕ
  requestId : String
  phase : Phase := .opening
  deriving DecidableEq

structure Args where
  sessionId : ℕ
  ns : String
  requestId : String
  uuid : String

def buildTunnelRequestID (ns uuid : String) : String :=
  (if trimSpace ns = "" then "tokiame" else trimSpace ns) ++ ":relay:" ++ uuid

def Args.id (args : Args) : String :=
  if trimSpace args.requestId = "" then buildTunnelRequestID args.ns args.uuid
  else trimSpace args.requestId

def start (args : Args) : Call := { sessionId := args.sessionId, requestId := args.id }

variable (m : Manager)

def trackRequest (request : InFlightRequest) : Manager :=
  if request.requestId = "" then m
  else { m with
    requests := (m.requests.filter fun e => e.requestId ≠ request.requestId) ++ [request] }

def removeRequest (requestId : String) : Manager :=
  if requestId = "" then m
  else { m with requests := m.requests.filter fun e => e.requestId ≠ requestId }

def cancel (i : ℕ) : Manager := { m with cancelled := i :: m.cancelled }

def cancelRequestsForSession (sessionId : ℕ) : Manager :=
  { m with
    requests := m.requests.filter fun e => e.sessionId ≠ sessionId
    cancelled :=
      ((m.requests.filter fun e => e.sessionId = sessionId).map InFlightRequest.cancel) ++
        m.cancelled }

/-- One step of call `i`; `ok` says whether what it asks of the stream succeeds. -/
def advance (i : ℕ) (m : Manager) (c : Call) (ok : Bool) : Option (Manager × Call) :=
  match c.phase with
  | .opening => some (m, { c with phase := if ok then .tracking else .refused })
  | .tracking => some (trackRequest m ⟨c.requestId, c.sessionId, i⟩, { c with phase := .writing })
  | .writing => some (m, { c with phase := if ok then .reading else .untracking })
  | .untracking => some (removeRequest m c.requestId, { c with phase := .cancelling })
  | .cancelling => some (cancel m i, { c with phase := .ended })
  | .reading => some (m, { c with phase := if ok then .pumping else .cleaning })
  | .pumping => some (m, { c with phase := .cleaning })
  | .cleaning => some (cancel m i, { c with phase := .removing })
  | .removing => some (removeRequest m c.requestId, { c with phase := .ended })
  | .refused | .ended => none

def release (sessionId : ℕ) : Option Manager :=
  some { cancelRequestsForSession m sessionId with released := sessionId :: m.released }

def system : System Manager Call Args Bool ℕ := ⟨start, advance, release⟩

abbrev RequestEvent := Event Args Bool ℕ

def init : Pool Manager Call := ⟨{}, []⟩

/-! ### What the table should be -/

/-- A request under way has its own entry; one of a released session has none and is cancelled. -/
structure Placed (i : ℕ) (m : Manager) (c : Call) : Prop where
  held : c.phase.held = true → c.sessionId ∉ m.released → ⟨c.requestId, c.sessionId, i⟩ ∈ m.requests
  gone : c.phase.tracked = true → c.sessionId ∈ m.released →
    (i ∈ m.cancelled ∨ c.phase = .cancelling) ∧ ∀ e ∈ m.requests, e.cancel ≠ i

def Good (p : Pool Manager Call) : Prop := Each Placed p

@[simp] def Phase.finishing : Phase → Bool
  | .untracking | .removing => true
  | _ => false

def Spares (p : Pool Manager Call) (event : RequestEvent) : Prop :=
  ∀ i c ok q, event = .move i ok → p.calls[i]? = some c → c.phase.finishing = true →
    system.step p event = some q → ∀ j d, j ≠ i → p.calls[j]? = some d → d.phase.held = true →
      ∀ e ∈ p.shared.requests, e.cancel = j → e ∈ q.shared.requests

def CarefulMove (i : ℕ) (m : Manager) (c : Call) : Prop :=
  match c.phase with
  | .tracking => c.sessionId ∉ m.released ∧ ∀ e ∈ m.requests, e.requestId ≠ c.requestId
  | .untracking | .removing => ∀ e ∈ m.requests, e.requestId = c.requestId → e.cancel = i
  | _ => True

/-- A request is tracked in time and under a free id, and takes out its own entry only. -/
def Careful (p : Pool Manager Call) : RequestEvent → Prop
  | .move i _ => ∀ c, p.calls[i]? = some c → CarefulMove i p.shared c
  | _ => True

/-! ### What a step does -/

lemma start_named (args : Args) : (start args).requestId ≠ "" := by
  unfold start Args.id
  split_ifs with h
  · intro hempty
    have hlength := congrArg String.length hempty
    simp [buildTunnelRequestID, String.length_append] at hlength
  · exact h

section
variable {p q : Pool Manager Call} {i : ℕ} {m m' : Manager} {c c' : Call} {ok : Bool}
  {event : RequestEvent}

/-- A call goes on, is tracked, takes its id out, or is cancelled. -/
inductive Moves (i : ℕ) (m : Manager) (c : Call) : Manager → Phase → Prop
  | quiet {next : Phase} (held : next.held = c.phase.held)
    (tracked : next.tracked = c.phase.tracked)
      (isOver : next.isOver = false) (here : c.phase ≠ .cancelling) (start : c.phase ≠ .tracking)
      (stays : c.phase.finishing = false) : Moves i m c m next
  | track (here : c.phase = .tracking) : Moves i m c
      { m with requests := (m.requests.filter fun e => e.requestId ≠ c.requestId) ++
          [⟨c.requestId, c.sessionId, i⟩] } .writing
  | remove {next : Phase} (here : c.phase.finishing = true) (held : next.held = false)
      (isOver : next.isOver = true → c.phase.isOver = true) : Moves i m c
      { m with requests := m.requests.filter fun e => e.requestId ≠ c.requestId } next
  | cancel {next : Phase} (held : next.held = c.phase.held) (tracked : c.phase.tracked = true)
      (start : c.phase ≠ .tracking) (stays : c.phase.finishing = false) :
      Moves i m c { m with cancelled := i :: m.cancelled } next

lemma advance_cases (hnamed : c.requestId ≠ "") (h : advance i m c ok = some (m', c')) :
    ∃ next, c' = { c with phase := next } ∧ Moves i m c m' next := by
  obtain ⟨sessionId, requestId, phase⟩ := c
  have hid := hnamed
  cases phase with
  | opening | writing | reading =>
    cases h
    refine ⟨_, rfl, .quiet ?_ ?_ ?_ nofun nofun rfl⟩ <;> cases ok <;> rfl
  | pumping =>
    cases h
    exact ⟨_, rfl, .quiet rfl rfl rfl nofun nofun rfl⟩
  | tracking =>
    cases h
    refine ⟨_, rfl, ?_⟩
    rw [trackRequest, if_neg hid]
    exact .track rfl
  | untracking =>
    cases h
    refine ⟨_, rfl, ?_⟩
    rw [removeRequest, if_neg hid]
    exact .remove rfl rfl nofun
  | removing =>
    cases h
    refine ⟨_, rfl, ?_⟩
    rw [removeRequest, if_neg hid]
    exact .remove rfl rfl fun _ => rfl
  | cancelling | cleaning =>
    cases h
    exact ⟨_, rfl, .cancel rfl rfl nofun rfl⟩
  | refused | ended => cases h

/-! ### What always holds -/

structure Inv (p : Pool Manager Call) : Prop where
  named : ∀ (i : ℕ) (c : Call), p.calls[i]? = some c → c.requestId ≠ ""
  isOver : ∀ (i : ℕ) (c : Call), p.calls[i]? = some c → c.phase.isOver = true →
    i ∈ p.shared.cancelled
  owned : ∀ e ∈ p.shared.requests, ∃ c : Call, p.calls[e.cancel]? = some c ∧
    c.requestId = e.requestId ∧ c.sessionId = e.sessionId ∧ c.phase.held = true

lemma inv_init : Inv init :=
  ⟨fun _ _ h => (nomatch h), fun _ _ h => (nomatch h), fun _ h => absurd h not_mem_nil⟩

section

variable (hp : Inv p)
include hp

lemma inv_move (hc : p.calls[i]? = some c) {next : Phase}
    (hmoves : Moves i p.shared c m' next) : Inv ⟨m', p.calls.set i { c with phase := next }⟩ := by
  have hi := (List.getElem?_eq_some_iff.mp hc).1
  have hnamed : ∀ (j : ℕ) (d : Call),
      (p.calls.set i { c with phase := next })[j]? = some d → d.requestId ≠ "" := by
    rw [forall_set_iff hc]
    exact ⟨hp.named i c hc, fun j d _ => hp.named j d⟩
  -- entries of other calls are owned as before, those of this one by the call at its new place
  have howned : ∀ e ∈ p.shared.requests, (e.cancel = i → next.held = true) →
      ∃ d : Call, (p.calls.set i { c with phase := next })[e.cancel]? = some d ∧
        d.requestId = e.requestId ∧ d.sessionId = e.sessionId ∧ d.phase.held = true := by
    intro e he hheld
    obtain ⟨d, hd, hid, hsession, hdheld⟩ := hp.owned e he
    by_cases hcancel : e.cancel = i
    · rw [hcancel] at hd ⊢
      obtain rfl := some.inj (hc.symm.trans hd)
      exact ⟨_, getElem?_set_self hi, hid, hsession, hheld hcancel⟩
    · exact ⟨d, (getElem?_set_ne (Ne.symm hcancel)).trans hd, hid, hsession, hdheld⟩
  have hown : ∀ e ∈ p.shared.requests, e.cancel = i → c.phase.held = true := by
    rintro e he rfl
    obtain ⟨d, hd, -, -, hheld⟩ := hp.owned e he
    obtain rfl := some.inj (hc.symm.trans hd)
    exact hheld
  refine ⟨hnamed, (forall_set_iff hc _).mpr ⟨?_, fun j d _ hd hover => ?_⟩, fun e he => ?_⟩
  · cases hmoves with
    | quiet _ _ isOver => simp [isOver]
    | track here => nofun
    | remove _ _ isOver => exact fun hover => hp.isOver i c hc (isOver hover)
    | cancel => exact fun _ => mem_cons_self
  · have hbefore := hp.isOver j d hd hover
    cases hmoves with
    | cancel => exact mem_cons_of_mem i hbefore
    | _ => exact hbefore
  · cases hmoves with
    | quiet held | cancel held => exact howned e he fun hcancel => held ▸ hown e he hcancel
    | track here =>
      rcases mem_append.mp he with he | he
      · exact howned e (mem_of_mem_filter he) fun _ => rfl
      · obtain rfl := mem_singleton.mp he
        exact ⟨_, getElem?_set_self hi, rfl, rfl, rfl⟩
    | remove =>
      obtain ⟨he, hid⟩ := mem_filter.mp he
      refine howned e he fun hcancel => ?_
      -- the entry of this call was under the id that is taken out
      obtain ⟨d, hd, hsame, -⟩ := hp.owned e he
      rw [hcancel] at hd
      obtain rfl := some.inj (hc.symm.trans hd)
      exact absurd hsame.symm (of_decide_eq_true hid)

lemma inv_release {sessionId : ℕ} (h : release p.shared sessionId = some m) :
    Inv { p with shared := m } := by
  cases h
  refine ⟨hp.named, fun j d hd hover => ?_, fun e he => ?_⟩
  · exact mem_append_right _ (hp.isOver j d hd hover)
  · exact hp.owned e (mem_of_mem_filter he)

lemma inv_step (h : system.step p event = some q) : Inv q := by
  cases event with
  | arrive args =>
    cases h
    refine ⟨?_, ?_, fun e he => ?_⟩
    · rw [forall_concat_iff]
      exact ⟨hp.named, start_named args⟩
    · rw [forall_concat_iff]
      exact ⟨hp.isOver, fun hover => (by cases hover)⟩
    · obtain ⟨c, hc, howned⟩ := hp.owned e he
      have hlt := (List.getElem?_eq_some_iff.mp hc).1
      exact ⟨c, (List.getElem?_append_left hlt).trans hc, howned⟩
  | move i ok =>
    obtain ⟨c, m', c', hc, hadvance, rfl⟩ := step_move.mp h
    obtain ⟨next, rfl, hmoves⟩ := advance_cases (hp.named i c hc) hadvance
    exact inv_move hp hc hmoves
  | env sessionId =>
    obtain ⟨m, hm, rfl⟩ := step_env.mp h
    exact inv_release hp hm

/-! ### What a careful step keeps -/

section

variable (hgood : Good p)
include hgood

lemma needed {e : InFlightRequest} (he : e ∈ p.shared.requests) :
    ∃ d, p.calls[e.cancel]? = some d ∧ d.requestId = e.requestId ∧ d.phase.held = true ∧
      d.sessionId ∉ p.shared.released := by
  obtain ⟨d, hd, hid, -, hheld⟩ := hp.owned e he
  refine ⟨d, hd, hid, hheld, fun hreleased => ?_⟩
  have htracked : d.phase.tracked = true := by cases hphase : d.phase <;> simp_all [Phase.held]
  exact ((hgood _ d hd).gone htracked hreleased).2 e he rfl

lemma good_track_iff (hc : p.calls[i]? = some c)
    (here : c.phase = .tracking)
    (hm : m' = { p.shared with requests :=
      (p.shared.requests.filter fun e => e.requestId ≠ c.requestId) ++
        [⟨c.requestId, c.sessionId, i⟩] }) :
    Good ⟨m', p.calls.set i { c with phase := .writing }⟩ ↔
      c.sessionId ∉ p.shared.released ∧ ∀ e ∈ p.shared.requests, e.requestId ≠ c.requestId := by
  have hnew : (⟨c.requestId, c.sessionId, i⟩ : InFlightRequest) ∈ m'.requests := by
    rw [hm]
    exact mem_append_right _ (mem_singleton_self _)
  subst hm
  rw [Good, Each, forall_set_iff hc]
  constructor
  · rintro ⟨hown, hother⟩
    refine ⟨fun hreleased => (hown.gone rfl hreleased).2 _ hnew rfl, fun e he hid => ?_⟩
    obtain ⟨d, hd, hdid, hheld, hdopen⟩ := needed hp hgood he
    have hne : e.cancel ≠ i := by
      intro hsame
      rw [hsame, hc] at hd
      cases hd
      rw [here] at hheld
      cases hheld
    rcases mem_append.mp ((hother _ d hne hd).held hheld hdopen) with hkept | hkept
    · exact absurd (hdid.trans hid) (of_decide_eq_true (mem_filter.mp hkept).2)
    · exact hne (congrArg InFlightRequest.cancel (mem_singleton.mp hkept))
  · rintro ⟨hopen, hfree⟩
    refine ⟨⟨fun _ _ => hnew, fun _ hreleased => absurd hreleased hopen⟩, fun j d hj hd =>
      ⟨fun hheld hdopen => ?_, fun htracked hreleased => ?_⟩⟩
    · have hentry := (hgood j d hd).held hheld hdopen
      exact mem_append_left _ (mem_filter.mpr ⟨hentry, decide_eq_true (hfree _ hentry)⟩)
    · obtain ⟨hcancelled, hnone⟩ := (hgood j d hd).gone htracked hreleased
      refine ⟨hcancelled, fun e he => ?_⟩
      rcases mem_append.mp he with he | he
      · exact hnone e (mem_of_mem_filter he)
      · rw [mem_singleton.mp he]
        exact hj.symm

lemma good_remove_iff (hc : p.calls[i]? = some c) {next : Phase}
    (here : c.phase.finishing = true) (hnext : next.held = false)
    (hm : m' = { p.shared with
      requests := p.shared.requests.filter fun e => e.requestId ≠ c.requestId }) :
    Good ⟨m', p.calls.set i { c with phase := next }⟩ ↔
      ∀ e ∈ p.shared.requests, e.requestId = c.requestId → e.cancel = i := by
  subst hm
  rw [Good, Each, forall_set_iff hc]
  constructor
  · rintro ⟨-, hother⟩ e he hid
    by_contra hne
    obtain ⟨d, hd, hdid, hheld, hdopen⟩ := needed hp hgood he
    have hkept := (hother _ d hne hd).held hheld hdopen
    exact absurd (hdid.trans hid) (of_decide_eq_true (mem_filter.mp hkept).2)
  · intro hown
    constructor
    · refine ⟨fun hheld => (by rw [hnext] at hheld; cases hheld), fun _ hreleased => ?_⟩
      have htracked : c.phase.tracked = true := by cases hphase : c.phase <;> simp_all
      obtain ⟨hcancelled, hnone⟩ := (hgood i c hc).gone htracked hreleased
      refine ⟨Or.inl (hcancelled.resolve_right fun hphase => ?_),
        fun e he => hnone e (mem_of_mem_filter he)⟩
      rw [hphase] at here
      cases here
    · intro j d hj hd
      refine ⟨fun hheld hdopen => ?_, fun htracked hreleased => ?_⟩
      · have hentry := (hgood j d hd).held hheld hdopen
        exact mem_filter.mpr ⟨hentry, decide_eq_true fun hid => hj (hown _ hentry hid)⟩
      · obtain ⟨hcancelled, hnone⟩ := (hgood j d hd).gone htracked hreleased
        exact ⟨hcancelled, fun e he => hnone e (mem_of_mem_filter he)⟩

lemma good_move_iff (hc : p.calls[i]? = some c) {next : Phase}
    (hmoves : Moves i p.shared c m' next) :
    Good ⟨m', p.calls.set i { c with phase := next }⟩ ↔ CarefulMove i p.shared c := by
  have hplaced := hgood i c hc
  have hcareful (start : c.phase ≠ .tracking) (stays : c.phase.finishing = false) :
      CarefulMove i p.shared c := by
    unfold CarefulMove
    split <;> simp_all
  cases hmoves with
  | quiet held tracked isOver here start stays =>
    refine iff_of_true ?_ (hcareful start stays)
    rw [Good, Each, forall_set_iff hc]
    refine ⟨⟨fun hheld => hplaced.held (held ▸ hheld), fun htracked hreleased => ?_⟩,
      fun j d _ => hgood j d⟩
    obtain ⟨hcancelled, hnone⟩ := hplaced.gone (tracked ▸ htracked) hreleased
    exact ⟨hcancelled.imp_right fun hphase => absurd hphase here, hnone⟩
  | track here =>
    rw [good_track_iff hp hgood hc here rfl]
    simp only [CarefulMove, here]
  | remove here held isOver =>
    rw [good_remove_iff hp hgood hc here held rfl]
    unfold CarefulMove
    split <;> simp_all
  | cancel held tracked start stays =>
    refine iff_of_true ?_ (hcareful start stays)
    rw [Good, Each, forall_set_iff hc]
    refine ⟨⟨fun hheld => hplaced.held (held ▸ hheld), fun _ hreleased => ?_⟩, fun j d _ hd => ?_⟩
    · exact ⟨Or.inl mem_cons_self, (hplaced.gone tracked hreleased).2⟩
    · refine ⟨(hgood j d hd).held, fun htracked hreleased => ?_⟩
      obtain ⟨hcancelled, hnone⟩ := (hgood j d hd).gone htracked hreleased
      exact ⟨hcancelled.imp_left (mem_cons_of_mem i), hnone⟩

lemma good_release {sessionId : ℕ}
    (h : release p.shared sessionId = some m) : Good { p with shared := m } := by
  cases h
  intro i c hc
  refine ⟨fun hheld hopen => ?_, fun htracked hreleased => ?_⟩
  · have hne : c.sessionId ≠ sessionId ∧ c.sessionId ∉ p.shared.released := by simpa using hopen
    exact mem_filter.mpr ⟨(hgood i c hc).held hheld hne.2, decide_eq_true hne.1⟩
  by_cases hbefore : c.sessionId ∈ p.shared.released
  · obtain ⟨hcancelled, hnone⟩ := (hgood i c hc).gone htracked hbefore
    exact ⟨hcancelled.imp_left (mem_append_right _), fun e he => hnone e (mem_of_mem_filter he)⟩
  have hsession := (mem_cons.mp hreleased).resolve_right hbefore
  constructor
  · by_cases hheld : c.phase.held = true
    · have hentry := (hgood i c hc).held hheld hbefore
      refine Or.inl (mem_append_left _ (mem_map.mpr ⟨_, mem_filter.mpr ⟨hentry, ?_⟩, rfl⟩))
      exact decide_eq_true hsession
    by_cases hphase : c.phase = .cancelling
    · exact Or.inr hphase
    · have hover : c.phase.isOver = true := by
        cases hc : c.phase <;> simp_all [Phase.held, Phase.isOver]
      exact Or.inl (mem_append_right _ (hp.isOver i c hc hover))
  · rintro e he rfl
    obtain ⟨he, hother⟩ := mem_filter.mp he
    obtain ⟨d, hd, -, hdsession, -⟩ := hp.owned e he
    obtain rfl := some.inj (hc.symm.trans hd)
    exact of_decide_eq_true hother (hdsession.symm.trans hsession)

lemma good_step_iff (h : system.step p event = some q) : Good q ↔ Careful p event := by
  cases event with
  | arrive args =>
    cases h
    refine iff_of_true ?_ trivial
    rw [Good, Each, forall_concat_iff]
    exact ⟨hgood, ⟨nofun, nofun⟩⟩
  | move i ok =>
    obtain ⟨c, m', c', hc, hadvance, rfl⟩ := step_move.mp h
    obtain ⟨next, rfl, hmoves⟩ := advance_cases (hp.named i c hc) hadvance
    rw [good_move_iff hp hgood hc hmoves]
    refine ⟨fun hcareful d hd => ?_, fun hcareful => hcareful c hc⟩
    obtain rfl := some.inj (hc.symm.trans hd)
    exact hcareful
  | env sessionId =>
    obtain ⟨m, hm, rfl⟩ := step_env.mp h
    exact iff_of_true (good_release hp hgood hm) trivial

end

end

lemma careful_of_none (h : system.step p event = none) : Careful p event := by
  cases event with
  | arrive args | env sessionId => trivial
  | move i ok =>
    intro c hc
    have hnone : advance i p.shared c ok = none := by simpa [System.step, hc, system] using h
    unfold CarefulMove
    split <;> simp_all [advance]

lemma spares_of_careful (hp : Inv p) (hcareful : Careful p event) : Spares p event := by
  rintro i c ok q rfl hc hfinishing hstep j d hj hd hheld e he rfl
  have hmove := hcareful c hc
  obtain ⟨c', m', d', hc', hadvance, rfl⟩ := step_move.mp hstep
  obtain rfl := some.inj (hc.symm.trans hc')
  obtain ⟨next, rfl, hmoves⟩ := advance_cases (hp.named i c hc) hadvance
  cases hmoves with
  | quiet held tracked isOver here start stays | cancel held tracked start stays => exact he
  | track here => exact absurd hfinishing (by simp [here])
  | remove here held isOver =>
    refine mem_filter.mpr ⟨he, decide_eq_true fun hid => hj ?_⟩
    unfold CarefulMove at hmove
    split at hmove <;> simp_all

/-- **Every entry belongs to a call that runs.** -/
theorem entries_live (events : List RequestEvent) : Stays system.step Inv init events :=
  fun _ _ => run_invariant' inv_step inv_init

/-- **The table of requests in flight** is right along a run exactly if every step is careful. -/
theorem inFlight_iff (events : List RequestEvent) :
    (Stays system.step Good init events ∧ Along system.step Spares init events) ↔
      Along system.step Careful init events := by
  have hgood : Good init := fun _ _ h => nomatch h
  have hexact : Stays system.step Good init events ↔ Along system.step Careful init events :=
    stays_iff_along_of_invariant careful_of_none inv_step good_step_iff inv_init hgood
  rw [← hexact]
  refine ⟨And.left, fun hstays => ⟨hstays, ?_⟩⟩
  have hinv : Stays system.step Inv init events := fun k p hp => run_invariant' inv_step inv_init hp
  exact along_imp spares_of_careful hinv (hexact.mp hstays)

end

def sameId : List RequestEvent :=
  [.arrive ⟨1, "", "r", ""⟩, .move 0 true, .move 0 true, .arrive ⟨2, "", "r", ""⟩, .move 1 true,
    .move 1 true, .move 0 false, .move 0 true, .env 2]

def lateTrack : List RequestEvent := [.arrive ⟨1, "", "r", ""⟩, .move 0 true, .env 1, .move 0 true]

lemma not_good_of_run {events : List RequestEvent} {i : ℕ} {m : Manager} {c : Call}
    (h : (run system.step init events).map (fun p => (p.shared, p.calls[i]?)) = some (m, some c))
    (hc : c.phase.tracked = true ∧ c.sessionId ∈ m.released ∧ i ∉ m.cancelled ∧
      c.phase ≠ .cancelling) :
    ∃ p, run system.step init events = some p ∧ p.shared = m ∧ ¬ Good p := by
  obtain ⟨p, hrun, hstate⟩ := map_eq_some_iff.mp h
  obtain ⟨rfl, hcall⟩ := Prod.mk.inj hstate
  refine ⟨p, hrun, rfl, fun hgood => ?_⟩
  exact ((hgood i _ hcall).gone hc.1 hc.2.1).1.elim hc.2.2.1 hc.2.2.2

/-- The second request with a shared id is not cancelled; one tracked too late keeps its entry. -/
theorem not_cancelled :
    (∃ p, run system.step init sameId = some p ∧ p.shared.requests = [] ∧ p.shared.cancelled = [] ∧
      ¬ Good p) ∧ ∃ p, run system.step init lateTrack = some p ∧ p.shared.requests = [⟨"r", 1, 0⟩] ∧
      p.shared.cancelled = [] ∧ ¬ Good p := by
  constructor
  · have hend : (run system.step init sameId).map (fun p => (p.shared, p.calls[1]?)) =
        some (⟨[], [2], []⟩, some ⟨2, "r", .writing⟩) := by decide
    obtain ⟨p, hrun, hshared, hbad⟩ := not_good_of_run hend (by decide)
    exact ⟨p, hrun, by rw [hshared], by rw [hshared], hbad⟩
  · have hend : (run system.step init lateTrack).map (fun p => (p.shared, p.calls[0]?)) =
        some (⟨[⟨"r", 1, 0⟩], [1], []⟩, some ⟨1, "r", .writing⟩) := by decide
    obtain ⟨p, hrun, hshared, hbad⟩ := not_good_of_run hend (by decide)
    exact ⟨p, hrun, by rw [hshared], by rw [hshared], hbad⟩

end Tokilake.Core.InFlight
