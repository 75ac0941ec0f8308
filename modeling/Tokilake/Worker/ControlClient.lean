import Mathlib.Data.List.Basic
import Mathlib.Data.Nat.Init

/-! # The worker's end of the control stream

`awaitAck` waits for the answer to a request.  `receiveControlMessages` runs beside the loops for
data streams and heartbeats, and `runOnce` waits for an error of one of them.

* `not_panic_iff`: when neither reader panics;
* `reconnects_iff`: when a lost connection is made again. -/

namespace Tokilake.Worker.ControlClient

inductive MessageType
  | ack
  | error
  | cancelRequest
  | other
  deriving DecidableEq

structure AckMessage where
  message : String
  ns : String

structure ErrorMessage where
  code : String
  message : String

structure CancelRequest where
  targetRequestID : String
  reason : String

structure ControlMessage where
  type : MessageType
  requestID : String
  ack : Option AckMessage := none
  error : Option ErrorMessage := none
  cancelRequest : Option CancelRequest := none

/-- What `codec.ReadMessage` returns; a message that cannot be decoded is an error, too. -/
abbrev Read := Except String ControlMessage

inductive Step (ε : Type)
  | next
  | done (result : ε)
  | panic

inductive AwaitErr
  | read (action err : String)
  | rejected (action : String) (message : Option String)

/-- A loop over what is read, up to the step that ends it; `next` if none does. -/
def loop {α ε : Type} (step : α → Step ε) : List α → Step ε
  | [] => .next
  | x :: xs =>
    match step x with
    | .next => loop step xs
    | .done result => .done result
    | .panic => .panic

def awaitStep (requestID action : String) : Read → Step (Option AwaitErr)
  | .error err => .done (some (.read action err))
  | .ok msg =>
    match msg.type with
    | .ack =>
      if msg.requestID ≠ requestID then .next
      -- the fields of the payload are logged
      else match msg.ack with
        | none => .panic
        | some _ => .done none
    | .error =>
      if msg.requestID ≠ requestID then .next
      else .done (some (.rejected action (msg.error.map ErrorMessage.message)))
    | _ => .next

def awaitAck (requestID action : String) : List Read → Step (Option AwaitErr) :=
  loop (awaitStep requestID action)

def receiveStep : Read → Step Unit
  | .error _ => .done ()
  | .ok msg =>
    match msg.type with
    | .ack =>
      match msg.ack with
      | none => .panic
      | some _ => .next
    | .error =>
      match msg.error with
      | none => .next
      | some _ => .done ()
    | _ => .next

/-- The answer to a message, if it asks for the cancellation of a request. -/
def cancelAck (ns : String) (cancelLocalRequest : String → Bool) : Read → Option ControlMessage
  | .error _ => none
  | .ok msg =>
    match msg.type, msg.cancelRequest with
    | .cancelRequest, some cancel => some
      { type := .ack, requestID := msg.requestID
        ack := some ⟨if cancelLocalRequest cancel.targetRequestID then "cancel_ok"
          else "cancel_noop", ns⟩ }
    | _, _ => none

/-- The loop, with the acknowledgements it writes. -/
def receiveControlMessages (ns : String) (cancelLocalRequest : String → Bool)
    (written : List ControlMessage) : List Read → Step Unit × List ControlMessage
  | [] => (.next, written)
  | read :: reads =>
    match receiveStep read with
    | .next => receiveControlMessages ns cancelLocalRequest
        (written ++ (cancelAck ns cancelLocalRequest read).toList) reads
    | .done result => (.done result, written)
    | .panic => (.panic, written)

/-! ### A missing payload -/

lemma loop_panic {α ε : Type} {step : α → Step ε} {l : List α} : loop step l = .panic ↔
    ∃ before x after, l = before ++ x :: after ∧ step x = .panic ∧
      ∀ y ∈ before, step y = .next := by
  induction l with
  | nil => simp [loop]
  | cons x xs ih =>
    constructor
    · intro h
      unfold loop at h
      cases hx : step x with
      | next =>
        obtain ⟨before, y, after, rfl, hy, hbefore⟩ := ih.mp (by simpa only [hx] using h)
        exact ⟨x :: before, y, after, rfl, hy, List.forall_mem_cons.mpr ⟨hx, hbefore⟩⟩
      | done result => simp [hx] at h
      | panic => exact ⟨[], x, xs, rfl, hx, nofun⟩
    · rintro ⟨_ | ⟨z, before⟩, y, after, hl, hy, hbefore⟩
      · cases hl
        simp only [loop, hy]
      · cases hl
        obtain ⟨hz, hbefore⟩ := List.forall_mem_cons.mp hbefore
        simpa only [loop, hz] using ih.mpr ⟨before, y, after, rfl, hy, hbefore⟩

lemma receive_eq_loop (ns : String) (cancelLocalRequest : String → Bool) :
    ∀ (reads : List Read) (written : List ControlMessage),
      (receiveControlMessages ns cancelLocalRequest written reads).1 = loop receiveStep reads
  | [], _ => rfl
  | read :: reads, written => by
    unfold receiveControlMessages loop
    cases receiveStep read with
    | next => exact receive_eq_loop ns cancelLocalRequest reads _
    | done result | panic => rfl

/-- An acknowledgement without its payload. -/
def BareAck (msg : ControlMessage) : Prop := msg.type = .ack ∧ msg.ack = none

lemma awaitStep_panic {requestID action : String} {read : Read} :
    awaitStep requestID action read = .panic ↔
      ∃ msg, read = .ok msg ∧ BareAck msg ∧ msg.requestID = requestID := by
  cases read with
  | error err => simp [awaitStep]
  | ok msg =>
    obtain ⟨type, id, ack, error, cancel⟩ := msg
    cases type <;> cases ack <;> by_cases h : id = requestID <;> simp [awaitStep, BareAck, h]

lemma receiveStep_panic {read : Read} :
    receiveStep read = .panic ↔ ∃ msg, read = .ok msg ∧ BareAck msg := by
  cases read with
  | error err => simp [receiveStep]
  | ok msg =>
    obtain ⟨type, id, ack, error, cancel⟩ := msg
    cases type <;> cases ack <;> cases error <;> simp [receiveStep, BareAck]

theorem not_panic_iff (ns requestID action : String) (cancelLocalRequest : String → Bool)
    (reads : List Read) : (awaitAck requestID action reads ≠ .panic ∧
      (receiveControlMessages ns cancelLocalRequest [] reads).1 ≠ .panic) ↔
      ∀ before msg after, reads = before ++ .ok msg :: after → BareAck msg →
        (msg.requestID = requestID → ∃ r ∈ before, awaitStep requestID action r ≠ .next) ∧
        ∃ r ∈ before, receiveStep r ≠ .next := by
  rw [receive_eq_loop, awaitAck, Ne, Ne, loop_panic, loop_panic]
  constructor
  · rintro ⟨hawait, hreceive⟩ before msg after hreads hbare
    refine ⟨fun hid => ?_, ?_⟩
    · by_contra hnext
      push Not at hnext
      exact hawait ⟨before, _, after, hreads, awaitStep_panic.mpr ⟨msg, rfl, hbare, hid⟩, hnext⟩
    · by_contra hnext
      push Not at hnext
      exact hreceive ⟨before, _, after, hreads, receiveStep_panic.mpr ⟨msg, rfl, hbare⟩, hnext⟩
  · intro h
    constructor
    · rintro ⟨before, read, after, hreads, hpanic, hnext⟩
      obtain ⟨msg, rfl, hbare, hid⟩ := awaitStep_panic.mp hpanic
      obtain ⟨r, hr, hend⟩ := (h before msg after hreads hbare).1 hid
      exact hend (hnext r hr)
    · rintro ⟨before, read, after, hreads, hpanic, hnext⟩
      obtain ⟨msg, rfl, hbare⟩ := receiveStep_panic.mp hpanic
      obtain ⟨r, hr, hend⟩ := (h before msg after hreads hbare).2
      exact hend (hnext r hr)

/-- Both loops log the message of an acknowledgement that has none. -/
theorem bare_ack_panics : let msg : ControlMessage := { type := .ack, requestID := "ns:register:1" }
    awaitAck "ns:register:1" "register" [.ok msg] = .panic ∧
      (receiveControlMessages "ns" (fun _ => false) [] [.ok msg]).1 = .panic := ⟨rfl, rfl⟩

/-! ### The connection -/

structure State where
  ctxDone : Bool := false
  accepting : Bool := true
  receiving : Bool := true
  beating : Bool := true
  errCh : List String := []
  returned : Option (Option String) := none

/-- A step of one of the goroutines, with what its call has returned; `idle` is any other. -/
inductive Action
  | cancel
  | accept (err : Option String)
  | receive (read : Read)
  | heartbeat (err : Option String)
  | heartbeatDone
  | selectDone
  | selectErr
  | idle

/-- A send that does not wait. -/
def trySend (errCh : List String) (err : String) : List String :=
  if errCh.length < 3 then errCh ++ [err] else errCh

def step (s : State) : Action → Option State
  | .cancel => some { s with ctxDone := true }
  | .accept none => if s.accepting then some s else none
  | .accept (some err) =>
    if s.accepting then
      if s.ctxDone then some { s with accepting := false }
      else some { s with accepting := false, errCh := trySend s.errCh err }
    else none
  | .receive read =>
    if s.receiving then
      match receiveStep read with
      | .next => some s
      | .done _ => some { s with receiving := false }
      | .panic => none
    else none
  | .heartbeat none => if s.beating then some s else none
  | .heartbeat (some err) =>
    if s.beating then some { s with beating := false, errCh := trySend s.errCh err } else none
  | .heartbeatDone => if s.beating ∧ s.ctxDone then some { s with beating := false } else none
  | .selectDone =>
    if s.ctxDone ∧ s.returned = none then some { s with returned := some none } else none
  | .selectErr =>
    match s.errCh, s.returned with
    | err :: errCh, none => some { s with errCh, returned := some (some err) }
    | _, _ => none
  | .idle => some s

/-- `runOnce` waits, and one of the channels of its `select` is ready. -/
def Ready (s : State) : Prop := s.returned = none ∧ (s.ctxDone ∨ s.errCh ≠ [])

/-- An execution from the moment the loops are started; a `select` that stays ready is taken. -/
structure Execution where
  state : ℕ → State
  action : ℕ → Action
  start : state 0 = {}
  next : ∀ n, step (state n) (action n) = some (state (n + 1))
  fair : ∀ n, (∀ m, n ≤ m → Ready (state m)) →
    ∃ m, n ≤ m ∧ (action m = .selectDone ∨ action m = .selectErr)

/-- Once the control stream is read no more, `runOnce` returns. -/
def Reconnects (e : Execution) : Prop :=
  ∀ n, (e.state n).receiving = false → (e.state n).ctxDone = false →
    ∃ m, n ≤ m ∧ (e.state m).returned ≠ none

/-- The steps that wake `runOnce`. -/
def Wakes : Action → Prop
  | .cancel => True
  | .accept err => err ≠ none
  | .heartbeat err => err ≠ none
  | _ => False

def Woken (s : State) : Prop := s.ctxDone ∨ s.errCh ≠ [] ∨ s.returned ≠ none

lemma trySend_ne (errCh : List String) (err : String) : trySend errCh err ≠ [] := by
  unfold trySend
  split_ifs with h
  · simp
  · rintro rfl
    exact h (by decide)

/-- A `select` ends `runOnce`, a waking step readies a channel, others leave the channels alone. -/
lemma step_spec {s t : State} {a : Action} (h : step s a = some t) :
    ((a = .selectDone ∨ a = .selectErr) ∧ Ready s ∧ t.returned ≠ none) ∨
      (a ≠ .selectDone ∧ a ≠ .selectErr ∧ t.returned = s.returned ∧
        (Wakes a ∧ (t.ctxDone ∨ t.errCh ≠ []) ∨
          ¬Wakes a ∧ t.ctxDone = s.ctxDone ∧ t.errCh = s.errCh)) := by
  cases a with
  | cancel | idle =>
    cases h
    simp [Wakes]
  | accept err =>
    cases err with
    | none =>
      simp only [step] at h
      split_ifs at h
      cases h
      simp [Wakes]
    | some err =>
      simp only [step] at h
      split_ifs at h with _ hdone
      all_goals
        cases h
        simp [Wakes, trySend_ne, *]
  | receive read =>
    simp only [step] at h
    split_ifs at h
    split at h
    case h_3 => cases h
    all_goals
      cases h
      simp [Wakes]
  | heartbeat err =>
    cases err with
    | none =>
      simp only [step] at h
      split_ifs at h
      cases h
      simp [Wakes]
    | some err =>
      simp only [step] at h
      split_ifs at h
      cases h
      simp [Wakes, trySend_ne]
  | heartbeatDone =>
    simp only [step] at h
    split_ifs at h
    cases h
    simp [Wakes]
  | selectDone =>
    simp only [step] at h
    split_ifs at h with hready
    cases h
    exact .inl ⟨.inl rfl, ⟨hready.2, .inl hready.1⟩, nofun⟩
  | selectErr =>
    simp only [step] at h
    split at h
    case h_1 err errCh herr hret =>
      cases h
      exact .inl ⟨.inr rfl, ⟨hret, .inr (by simp [herr])⟩, nofun⟩
    case h_2 => cases h

section

variable (e : Execution)

lemma wakes_of_woken : ∀ n, Woken (e.state n) → ∃ k, Wakes (e.action k)
  | 0, h => by
    rw [Woken, e.start] at h
    simp at h
  | n + 1, h => by
    rcases step_spec (e.next n) with ⟨_, hready, _⟩ | ⟨_, _, hret, ⟨hw, _⟩ | ⟨_, hctx, herr⟩⟩
    · exact wakes_of_woken n (hready.2.imp_right .inl)
    · exact ⟨n, hw⟩
    · rw [Woken, hctx, herr, hret] at h
      exact wakes_of_woken n h

lemma returned_of_le {n m : ℕ} (hnm : n ≤ m) (h : (e.state n).returned ≠ none) :
    (e.state m).returned ≠ none := by
  induction m, hnm using Nat.le_induction with
  | base => exact h
  | succ m _ ih =>
    rcases step_spec (e.next m) with ⟨_, _, hret⟩ | ⟨_, _, hret, _⟩
    · exact hret
    · rwa [hret]

/-- As long as `runOnce` does not return, it stays ready once it was woken. -/
lemma ready_of_wakes (hnever : ∀ m, (e.state m).returned = none) {k : ℕ}
    (hk : Wakes (e.action k)) : ∀ m, k + 1 ≤ m → Ready (e.state m) := by
  intro m hm
  refine ⟨hnever m, ?_⟩
  induction m, hm using Nat.le_induction with
  | base =>
    rcases step_spec (e.next k) with ⟨_, _, hret⟩ | ⟨_, _, _, ⟨_, hready⟩ | ⟨hnot, _⟩⟩
    · exact absurd (hnever _) hret
    · exact hready
    · exact absurd hk hnot
  | succ m _ ih =>
    rcases step_spec (e.next m) with ⟨_, _, hret⟩ | ⟨_, _, _, ⟨_, hready⟩ | ⟨_, hctx, herr⟩⟩
    · exact absurd (hnever _) hret
    · exact hready
    · rwa [hctx, herr]

lemma returns_of_wakes {k : ℕ} (hk : Wakes (e.action k)) : ∃ m, (e.state m).returned ≠ none := by
  by_contra hnever
  push Not at hnever
  obtain ⟨m, _, hselect⟩ := e.fair (k + 1) (ready_of_wakes e hnever hk)
  rcases step_spec (e.next m) with ⟨_, _, hret⟩ | ⟨hdone, herr, _⟩
  · exact hret (hnever _)
  · exact hselect.elim hdone herr

theorem reconnects_iff :
    Reconnects e ↔ ∀ n, (e.state n).receiving = false → (e.state n).ctxDone = false →
      ∃ k, Wakes (e.action k) := by
  refine forall₃_congr fun n _ _ => ⟨?_, ?_⟩
  · rintro ⟨m, _, hret⟩
    exact wakes_of_woken e m (.inr (.inr hret))
  · rintro ⟨k, hk⟩
    obtain ⟨m, hret⟩ := returns_of_wakes e hk
    exact ⟨max n m, Nat.le_max_left n m, returned_of_le e (Nat.le_max_right n m) hret⟩

end

/-- The control stream has ended; streams are still accepted and heartbeats written. -/
theorem never_reconnects : ∃ e : Execution, e.action 0 = .receive (.error "EOF") ∧
    (∀ n, e.action (2 * n + 1) = .accept none ∧ e.action (2 * n + 2) = .heartbeat none) ∧
    (∀ n, (e.state (n + 1)).returned = none) ∧ ¬Reconnects e := by
  let state (n : ℕ) : State := { receiving := decide (n = 0) }
  let action (n : ℕ) : Action :=
    if n = 0 then .receive (.error "EOF") else if n % 2 = 1 then .accept none else .heartbeat none
  have hnext : ∀ n, step (state n) (action n) = some (state (n + 1)) := by
    rintro (_ | n)
    · rfl
    · by_cases h : (n + 1) % 2 = 1 <;> simp [state, action, step, h]
  have hready : ∀ n, ¬Ready (state n) := by rintro n ⟨_, h⟩; simp [state] at h
  let e : Execution := ⟨state, action, rfl, hnext, fun n h => absurd (h n n.le_refl) (hready n)⟩
  refine ⟨e, rfl, fun n => ⟨?_, ?_⟩, fun n => rfl, fun h => ?_⟩
  · simp [e, action, Nat.add_mod]
  · simp [e, action]
  · obtain ⟨m, hm, hret⟩ := h 1 rfl rfl
    exact hret rfl

end Tokilake.Worker.ControlClient
