import Tokilake.Lib.Run

/-! # The websocket proxy of a realtime session

Two transfers copy messages, one for each direction, and send on the unbuffered `done` when they
end; `Wait` receives from it once.  A connection is the list of its unread frames.

* `terminates_iff`: when both transfers end. -/

namespace Tokilake.Relay.WsProxy

open Lib.Run Option Function

/-! ### Transfers -/

inductive MessageSource
  | user
  | supplier
  deriving DecidableEq

def MessageSource.other : MessageSource → MessageSource
  | .user => .supplier
  | .supplier => .user

structure Frame where
  messageType : ℕ
  message : List UInt8
  deriving DecidableEq

def textMessage : ℕ := 1

structure Conn where
  inbox : List Frame := []
  sent : List Frame := []
  closed : Bool := false
  deriving DecidableEq

structure Handled (υ : Type) where
  shouldContinue : Bool
  usage : Option υ := none
  newMessage : Option (List UInt8) := none
  err : Option (List UInt8) := none

inductive Phase (υ : Type)
  | reading
  | handling (frame : Frame)
  | metering (usage : υ) (frame : Frame)
  | writing (frame : Frame)
  | failing (frame : Frame) (rest : List Frame)
  | returning
  | sending
  | finished
  deriving DecidableEq

structure Setup where
  handler : Bool
  usageHandler : Bool

inductive Move (υ : Type)
  | read
  | readError
  | handled (result : Handled υ)
  | usageHandled (err : Option (List UInt8))
  | write (ok : Bool)
  | closeClosed

variable {υ : Type}

def Phase.closed : Phase υ → Bool
  | .sending | .finished => true
  | _ => false

def handle (cfg : Setup) (frame : Frame) (result : Handled υ) : Phase υ :=
  match result.err with
  | some err => .failing ⟨textMessage, err⟩ []
  | none =>
    if result.shouldContinue = false then .returning
    else
      let frame := { frame with message := result.newMessage.getD frame.message }
      match result.usage with
      | some usage => if cfg.usageHandler then .metering usage frame else .writing frame
      | none => .writing frame

def fail : List Frame → Phase υ
  | [] => .returning
  | frame :: rest => .failing frame rest

def Conn.push (c : Conn) (frame : Frame) : Conn := { c with sent := c.sent ++ [frame] }

def transfer (cfg : Setup) (src dst : Conn) : Phase υ → Move υ → Option (Conn × Conn × Phase υ)
  | .reading, .read =>
    match src.inbox with
    | [] => none
    | frame :: inbox =>
      some ({ src with inbox }, dst, if cfg.handler then .handling frame else .writing frame)
  | .reading, .readError => some (src, dst, .returning)
  | .handling frame, .handled result => some (src, dst, handle cfg frame result)
  | .metering _ frame, .usageHandled err =>
    match err with
    | some err => some (src, dst, .failing ⟨textMessage, frame.message⟩ [⟨textMessage, err⟩])
    | none => some (src, dst, .writing frame)
  | .writing frame, .write true =>
    if dst.closed then none else some (src, dst.push frame, .reading)
  | .writing _, .write false => some (src, dst, .returning)
  | .failing frame rest, .write true =>
    if dst.closed then none else some (src, dst.push frame, fail rest)
  | .failing _ rest, .write false => some (src, dst, fail rest)
  | .returning, .closeClosed => some (src, dst, .sending)
  | _, _ => none

/-! ### The proxy -/

/-- The connections, the transfers by what they read from, and the receives still to be made. -/
structure Proxy (υ : Type) where
  conn : MessageSource → Conn
  phase : MessageSource → Phase υ
  waits : ℕ

inductive Event (υ : Type)
  | receive (source : MessageSource) (frame : Frame)
  | drop (source : MessageSource)
  | close
  | transfer (source : MessageSource) (move : Move υ)
  | wait (source : MessageSource)

def start (n : ℕ) : Proxy υ := ⟨fun _ => {}, fun _ => .reading, n⟩

def Conn.close (c : Conn) : Conn := { c with closed := true }

@[simp] def Proxy.setConn (p : Proxy υ) (s : MessageSource) (c : Conn) : Proxy υ :=
  { p with conn := update p.conn s c }

def Proxy.setPhase (p : Proxy υ) (s : MessageSource) (phase : Phase υ) : Proxy υ :=
  { p with phase := update p.phase s phase }

def Proxy.received (p : Proxy υ) (s : MessageSource) (n : ℕ) : Proxy υ :=
  { p.setPhase s .finished with waits := n }

def Proxy.close (p : Proxy υ) : Proxy υ := { p with conn := fun s => (p.conn s).close }

def step (cfg : Setup) (p : Proxy υ) : Event υ → Option (Proxy υ)
  | .receive s frame =>
    if (p.conn s).closed then none
    else some (p.setConn s { p.conn s with inbox := (p.conn s).inbox ++ [frame] })
  -- the peer goes away, or the network does
  | .drop s => some (p.setConn s (p.conn s).close)
  | .close => some p.close
  | .transfer s move =>
    (transfer cfg (p.conn s) (p.conn s.other) (p.phase s) move).map fun r =>
      ((p.setConn s r.1).setConn s.other r.2.1).setPhase s r.2.2
  -- `done` has no buffer: a transfer sends when the owner receives
  | .wait s =>
    match p.phase s, p.waits with
    | .sending, n + 1 => some (p.received s n)
    | _, _ => none

def Event.isTransfer : Event υ → Bool
  | .transfer _ _ | .wait _ => true
  | _ => false

/-- Both goroutines take only so many steps more, and then have finished. -/
def Terminates (cfg : Setup) (p : Proxy υ) : Prop :=
  ∃ bound, ∀ (bs : List (Event υ)) (u : Proxy υ), run (step cfg) p bs = some u →
    bs.countP Event.isTransfer ≤ bound ∧
      (Rest (step cfg) Event.isTransfer u → ∀ s, u.phase s = .finished)

/-! ### The steps of a transfer -/

@[simp] def Phase.weight : Phase υ → ℕ
  | .reading => 3
  | .handling _ => 6
  | .metering _ _ => 5
  | .writing _ => 4
  | .failing _ rest => 3 + rest.length
  | .returning => 2
  | .sending => 1
  | .finished => 0

variable {cfg : Setup}

lemma weight_handle (cfg : Setup) (frame : Frame) (result : Handled υ) :
    (handle cfg frame result).weight ≤ 5 ∧ handle cfg frame result ≠ .finished := by
  unfold handle
  cases result.err with
  | some err => simp
  | none =>
    by_cases hc : result.shouldContinue = false
    · simp [hc]
    · cases result.usage with
      | none => simp [hc]
      | some usage => cases hu : cfg.usageHandler <;> simp [hc]

lemma weight_fail (rest : List Frame) :
    (fail rest : Phase υ).weight ≤ 2 + rest.length ∧ (fail rest : Phase υ) ≠ .finished := by
  cases rest with
  | nil => simp [fail]
  | cons frame rest =>
    simp only [fail, Phase.weight, List.length_cons, ne_eq, reduceCtorEq,
      not_false_eq_true, and_true]
    omega

/-- A transfer reads at most one frame of its own, comes closer to its end, and stays before `done`.
-/
structure Moved (src dst src' dst' : Conn) (phase phase' : Phase υ) : Prop where
  src_closed : src'.closed = src.closed
  dst_closed : dst'.closed = dst.closed
  dst_inbox : dst'.inbox = dst.inbox
  closer : phase'.weight + 4 * src'.inbox.length + 1 ≤ phase.weight + 4 * src.inbox.length
  running : phase ≠ .finished
  not_finished : phase' ≠ .finished

lemma transfer_spec {src dst src' dst' : Conn} {phase phase' : Phase υ} {move : Move υ}
    (h : transfer cfg src dst phase move = some (src', dst', phase')) :
    Moved src dst src' dst' phase phase' := by
  unfold transfer at h
  split at h
  · split at h
    · cases h
    rename_i frame inbox hin
    cases h
    refine ⟨rfl, rfl, rfl, ?_, by simp, by split_ifs <;> simp⟩
    rw [hin]
    split_ifs <;> simp only [Phase.weight, List.length_cons] <;> omega
  · cases h
    exact ⟨rfl, rfl, rfl, by simp only [Phase.weight]; omega, by simp, by simp⟩
  · rename_i frame result
    cases h
    obtain ⟨hw, hne⟩ := weight_handle cfg frame result
    refine ⟨rfl, rfl, rfl, ?_, by simp, hne⟩
    show _ ≤ 6 + 4 * src.inbox.length
    omega
  · split at h
    · cases h
      exact ⟨rfl, rfl, rfl, by simp only [Phase.weight, List.length_cons, List.length_nil]; omega,
        by simp, by simp⟩
    · cases h
      exact ⟨rfl, rfl, rfl, by simp only [Phase.weight]; omega, by simp, by simp⟩
  · split_ifs at h with hc
    cases h
    exact ⟨rfl, rfl, rfl, by simp only [Phase.weight]; omega, by simp, by simp⟩
  · cases h
    exact ⟨rfl, rfl, rfl, by simp only [Phase.weight]; omega, by simp, by simp⟩
  · rename_i frame rest
    split_ifs at h with hc
    cases h
    obtain ⟨hw, hne⟩ := weight_fail rest
    refine ⟨rfl, rfl, rfl, ?_, by simp, hne⟩
    show _ ≤ 3 + rest.length + 4 * src.inbox.length
    omega
  · rename_i frame rest
    cases h
    obtain ⟨hw, hne⟩ := weight_fail rest
    refine ⟨rfl, rfl, rfl, ?_, by simp, hne⟩
    show _ ≤ 3 + rest.length + 4 * src.inbox.length
    omega
  · cases h
    exact ⟨rfl, rfl, rfl, by simp only [Phase.weight]; omega, by simp, by simp⟩
  · cases h

lemma exists_move (cfg : Setup) (src dst : Conn) {phase : Phase υ} (hs : phase ≠ .sending)
    (hf : phase ≠ .finished) : ∃ move, transfer cfg src dst phase move ≠ none := by
  cases phase with
  | reading => exact ⟨.readError, by simp [transfer]⟩
  | handling frame => exact ⟨.handled ⟨false, none, none, none⟩, by simp [transfer]⟩
  | metering usage frame => exact ⟨.usageHandled none, by simp [transfer]⟩
  | writing frame | failing frame rest => exact ⟨.write false, by simp [transfer]⟩
  | returning => exact ⟨.closeClosed, by simp [transfer]⟩
  | sending => exact absurd rfl hs
  | finished => exact absurd rfl hf

/-! ### The steps of the proxy -/

variable {p q : Proxy υ} {s : MessageSource}

lemma other_ne (s : MessageSource) : s.other ≠ s := by cases s <;> simp [MessageSource.other]

lemma forall_source {P : MessageSource → Prop} (s : MessageSource) :
    (∀ s', P s') ↔ P s ∧ P s.other := by
  constructor
  · exact fun h => ⟨h s, h s.other⟩
  · rintro ⟨h, h'⟩ s'
    cases s <;> cases s' <;> assumption

def Proxy.moved (p : Proxy υ) (s : MessageSource) (src dst : Conn) (phase : Phase υ) : Proxy υ :=
  ((p.setConn s src).setConn s.other dst).setPhase s phase

lemma step_transfer {move : Move υ} : step cfg p (.transfer s move) = some q ↔
    ∃ src dst phase, transfer cfg (p.conn s) (p.conn s.other) (p.phase s) move =
      some (src, dst, phase) ∧ q = p.moved s src dst phase := by
  simp only [step, map_eq_some_iff, Prod.exists]
  constructor <;>
  · rintro ⟨src, dst, phase, h, rfl⟩
    exact ⟨src, dst, phase, h, rfl⟩

lemma step_wait : step cfg p (.wait s) = some q ↔
    p.phase s = .sending ∧ ∃ n, p.waits = n + 1 ∧ q = p.received s n := by
  simp only [step]
  constructor
  · intro h
    split at h
    · rename_i n hphase hwaits
      exact ⟨hphase, n, hwaits, (some.inj h).symm⟩
    · cases h
  · rintro ⟨hphase, n, hwaits, rfl⟩
    rw [hphase, hwaits]

lemma step_quiet {e : Event υ} (he : e.isTransfer = false) (h : step cfg p e = some q) :
    q.phase = p.phase ∧ q.waits = p.waits := by
  cases e with
  | receive s frame =>
    simp only [step] at h
    split_ifs at h
    cases h
    exact ⟨rfl, rfl⟩
  | drop s | close =>
    cases h
    exact ⟨rfl, rfl⟩
  | transfer s move | wait s => cases he

section
variable (p : Proxy υ) (s : MessageSource) (src dst : Conn) (phase : Phase υ)

@[simp] lemma moved_conn : (p.moved s src dst phase).conn s = src := by
  simp [Proxy.moved, Proxy.setPhase, (other_ne s).symm]

@[simp] lemma moved_conn_other : (p.moved s src dst phase).conn s.other = dst := by
  simp [Proxy.moved, Proxy.setPhase]

@[simp] lemma moved_phase : (p.moved s src dst phase).phase s = phase := by
  simp [Proxy.moved, Proxy.setPhase]

lemma moved_phase_ne {s' : MessageSource} (h : s' ≠ s) :
    (p.moved s src dst phase).phase s' = p.phase s' := by
  simp [Proxy.moved, Proxy.setPhase, h]

@[simp] lemma moved_phase_other : (p.moved s src dst phase).phase s.other = p.phase s.other :=
  moved_phase_ne p s src dst phase (other_ne s)

@[simp] lemma moved_waits : (p.moved s src dst phase).waits = p.waits := rfl

end

lemma transfer_metering {src dst : Conn} {usage : υ} {frame : Frame} {move : Move υ}
    (h : transfer cfg src dst (.metering usage frame) move ≠ none) :
    ∃ err, move = .usageHandled err := by
  cases move with
  | usageHandled err => exact ⟨err, rfl⟩
  | _ => exact absurd rfl h

lemma metering_step {e : Event υ} {usage : υ} {frame : Frame}
    (hp : p.phase s = .metering usage frame)
    (he : ∀ err, e ≠ .transfer s (.usageHandled err)) (h : step cfg p e = some q) :
    q.phase s = .metering usage frame := by
  cases e with
  | transfer s' move =>
    obtain ⟨src, dst, phase, ht, rfl⟩ := step_transfer.mp h
    by_cases hs : s = s'
    · subst hs
      rw [hp] at ht
      obtain ⟨err, rfl⟩ := transfer_metering (ne_none_iff_exists'.mpr ⟨_, ht⟩)
      exact absurd rfl (he err)
    · rw [moved_phase_ne p s' src dst phase hs, hp]
  | wait s' =>
    obtain ⟨hsending, n, -, rfl⟩ := step_wait.mp h
    have hs : s ≠ s' := by
      rintro rfl
      rw [hp] at hsending
      cases hsending
    simpa [Proxy.received, Proxy.setPhase, hs] using hp
  | _ =>
    obtain ⟨hphase, -⟩ := step_quiet rfl h
    rw [hphase, hp]

/-! ### Bounded running time -/

def Closed (p : Proxy υ) : Prop := ∀ s, (p.conn s).closed = true

/-- The steps a transfer can take before its end, with the frames that have come in for it. -/
def Proxy.left (p : Proxy υ) (s : MessageSource) : ℕ :=
  (p.phase s).weight + 4 * (p.conn s).inbox.length

def Proxy.size (p : Proxy υ) : ℕ := p.left .user + p.left .supplier

lemma size_eq (p : Proxy υ) (s : MessageSource) : p.size = p.left s + p.left s.other := by
  cases s
  · rfl
  · exact Nat.add_comm _ _

lemma closed_step {e : Event υ} (hp : Closed p) (h : step cfg p e = some q) : Closed q := by
  cases e with
  | receive s frame => simp [step, hp s] at h
  | drop s =>
    cases h
    rw [Closed, forall_source s]
    exact ⟨by simp [Conn.close], by simpa [other_ne s] using hp s.other⟩
  | close =>
    cases h
    exact fun s => rfl
  | transfer s move =>
    obtain ⟨src, dst, phase, ht, rfl⟩ := step_transfer.mp h
    have hm := transfer_spec ht
    rw [Closed, forall_source s]
    simp [hm.src_closed, hm.dst_closed, hp s, hp s.other]
  | wait s =>
    obtain ⟨-, n, -, rfl⟩ := step_wait.mp h
    exact hp

lemma size_step {e : Event υ} (hp : Closed p) (h : step cfg p e = some q) :
    q.size + (if e.isTransfer then 1 else 0) ≤ p.size := by
  cases e with
  | receive s frame => simp [step, hp s] at h
  | drop s =>
    cases h
    rw [size_eq _ s, size_eq p s]
    simp [Proxy.left, Conn.close, other_ne s, Event.isTransfer]
  | close =>
    cases h
    exact Nat.le_refl _
  | transfer s move =>
    obtain ⟨src, dst, phase, ht, rfl⟩ := step_transfer.mp h
    have hm := transfer_spec ht
    have hcloser := hm.closer
    rw [size_eq _ s, size_eq p s]
    simp only [Proxy.left, moved_conn, moved_conn_other, moved_phase, moved_phase_other,
      hm.dst_inbox, Event.isTransfer, if_true]
    omega
  | wait s =>
    obtain ⟨hphase, n, hwaits, rfl⟩ := step_wait.mp h
    rw [size_eq _ s, size_eq p s]
    simp only [Proxy.left, Proxy.received, Proxy.setPhase, update_self,
      update_of_ne (other_ne s), hphase, Event.isTransfer, Phase.weight, if_true]
    omega

/-! ### Receives -/

def Phase.ended : Phase υ → ℕ
  | .finished => 1
  | _ => 0

lemma ended_of_ne {phase : Phase υ} (h : phase ≠ .finished) : phase.ended = 0 := by
  cases phase <;> first | rfl | exact absurd rfl h

lemma waits_finished {n : ℕ} {as : List (Event υ)} (h : run (step cfg) (start n) as = some p) :
    p.waits + ((p.phase .user).ended + (p.phase .supplier).ended) = n := by
  have hsum : ∀ (r : Proxy υ) (s : MessageSource),
      (r.phase .user).ended + (r.phase .supplier).ended =
      (r.phase s).ended + (r.phase s.other).ended := by
    intro r s
    cases s
    · rfl
    · exact Nat.add_comm _ _
  refine run_invariant' (I := fun r : Proxy υ =>
    r.waits + ((r.phase .user).ended + (r.phase .supplier).ended) = n) ?_
      (by simp [start, Phase.ended]) h
  intro r e r' hr hstep
  cases e with
  | transfer s move =>
    obtain ⟨src, dst, phase, ht, rfl⟩ := step_transfer.mp hstep
    have hm := transfer_spec ht
    rw [hsum _ s] at hr ⊢
    simpa [ended_of_ne hm.running, ended_of_ne hm.not_finished] using hr
  | wait s =>
    obtain ⟨hphase, m, hwaits, rfl⟩ := step_wait.mp hstep
    rw [hsum _ s] at hr ⊢
    simp only [Proxy.received, Proxy.setPhase, update_self,
      update_of_ne (other_ne s), hphase, hwaits, Phase.ended] at hr ⊢
    omega
  | _ =>
    obtain ⟨hphase, hwaits⟩ := step_quiet rfl hstep
    rw [hphase, hwaits]
    exact hr

lemma finished_or_blocked (h : Rest (step cfg) Event.isTransfer p) (s : MessageSource) :
    p.phase s = .finished ∨ (p.phase s = .sending ∧ p.waits = 0) := by
  by_cases hf : p.phase s = .finished
  · exact Or.inl hf
  by_cases hs : p.phase s = .sending
  · refine Or.inr ⟨hs, ?_⟩
    by_contra hw
    obtain ⟨n, hn⟩ := Nat.exists_eq_succ_of_ne_zero hw
    have hstep : step cfg p (.wait s) = some (p.received s n) := step_wait.mpr ⟨hs, n, hn, rfl⟩
    rw [h (.wait s) rfl] at hstep
    cases hstep
  · obtain ⟨move, hmove⟩ := exists_move cfg (p.conn s) (p.conn s.other) hs hf
    obtain ⟨⟨src, dst, phase⟩, ht⟩ := ne_none_iff_exists'.mp hmove
    have hstep := step_transfer.mpr ⟨src, dst, phase, ht, rfl⟩
    rw [h (.transfer s move) rfl] at hstep
    cases hstep

lemma transfer_sending (src dst : Conn) (move : Move υ) :
    transfer cfg src dst .sending move = none := by
  cases move <;> rfl

lemma blocked_run {as : List (Event υ)} (hs : p.phase s = .sending) (hw : p.waits = 0)
    (h : run (step cfg) p as = some q) : q.phase s = .sending ∧ q.waits = 0 := by
  refine run_invariant' (I := fun r : Proxy υ => r.phase s = .sending ∧ r.waits = 0) ?_ ⟨hs, hw⟩ h
  rintro r e r' ⟨hs, hw⟩ hstep
  cases e with
  | transfer s' move =>
    obtain ⟨src, dst, phase, ht, rfl⟩ := step_transfer.mp hstep
    have hne : s' ≠ s := by
      rintro rfl
      rw [hs, transfer_sending] at ht
      cases ht
    have hother : s = s'.other := by cases s <;> cases s' <;> first | rfl | exact absurd rfl hne
    subst hother
    exact ⟨by rw [moved_phase_other, hs], hw⟩
  | wait s' =>
    obtain ⟨-, n, hn, -⟩ := step_wait.mp hstep
    omega
  | _ =>
    obtain ⟨hphase, hwaits⟩ := step_quiet rfl hstep
    rw [hphase, hwaits]
    exact ⟨hs, hw⟩

/-- **Both transfers end** exactly when the owner receives from `done` twice. -/
theorem terminates_iff {n : ℕ} {as : List (Event υ)} (hrun : run (step cfg) (start n) as = some p)
    (hclosed : Closed p) : Terminates cfg p ↔ 2 ≤ n := by
  constructor
  · rintro ⟨bound, hall⟩
    -- the two goroutines run on until neither can, and then both must have been received from
    have hexists : ∃ bs u, (∀ e ∈ bs, Event.isTransfer e = true) ∧ run (step cfg) p bs = some u ∧
        Rest (step cfg) Event.isTransfer u :=
      @exists_rest _ _ (step cfg) Event.isTransfer Proxy.size Closed closed_step size_step p hclosed
    obtain ⟨bs, u, -, hu, hrest⟩ := hexists
    have hfinished := (hall bs u hu).2 hrest
    have hcount := waits_finished (run_append.mpr ⟨p, hrun, hu⟩)
    rw [hfinished, hfinished] at hcount
    simp only [Phase.ended] at hcount
    omega
  · intro hn
    refine ⟨p.size, fun bs u hu => ⟨?_, fun hrest => ?_⟩⟩
    · have hle : u.size + bs.countP Event.isTransfer ≤ p.size :=
        @countP_task_le _ _
          (step cfg) Event.isTransfer Proxy.size Closed closed_step size_step bs p u
          hclosed hu
      omega
    · have hcount := waits_finished (run_append.mpr ⟨p, hrun, hu⟩)
      by_contra hnot
      push Not at hnot
      obtain ⟨s, hs⟩ := hnot
      obtain ⟨hsending, hzero⟩ := (finished_or_blocked hrest s).resolve_left hs
      have hone : ∀ s' : MessageSource, (u.phase s').ended ≤ 1 := by
        intro s'
        cases u.phase s' <;> simp [Phase.ended]
      have hu1 := hone .user
      have hu2 := hone .supplier
      have hs0 := ended_of_ne hs
      cases s <;> omega

def both : Setup := ⟨true, true⟩

theorem terminates_of_two_waits : Terminates both (start 2 : Proxy Unit).close :=
  (terminates_iff (show run (step both) (start 2) [.close] = some (start 2).close from rfl)
    fun _ => rfl).mpr (Nat.le_refl 2)

def hangUp : List (Event Unit) :=
  [.drop .user, .transfer .user .readError, .transfer .user .closeClosed, .close, .wait .user,
    .transfer .supplier .readError, .transfer .supplier .closeClosed]

/-- With one `Wait` the provider's transfer is left on `done` after the user has hung up. -/
theorem blocked_on_done : ∃ p, run (step both) (start 1) hangUp = some p ∧ Closed p ∧
    ∀ as q, run (step both) p as = some q → q.phase .supplier = .sending := by
  obtain ⟨p, hp⟩ := isSome_iff_exists.mp
    (show (run (step both) (start 1) hangUp).isSome from rfl)
  have hend : (run (step both) (start 1) hangUp).map (fun p =>
      ((p.conn .user).closed, (p.conn .supplier).closed, p.phase .supplier, p.waits)) =
    some (true, true, .sending, 0) := rfl
  rw [hp, map_some, some_inj] at hend
  simp only [Prod.mk.injEq] at hend
  obtain ⟨huser, hsupplier, hsending, hwaits⟩ := hend
  refine ⟨p, hp, ?_, fun as q hq => (blocked_run hsending hwaits hq).1⟩
  rw [Closed, forall_source .user]
  exact ⟨huser, hsupplier⟩

end Tokilake.Relay.WsProxy
