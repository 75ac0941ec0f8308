import Tokilake.Smux.Bucket

/-! # A stream that is not read, and the others

The receive loop serves all streams, and waits for room in the channel of one while it holds the
lock of the table.

* `wakeup_kept`: no wake-up of the receive loop is lost;
* `proceeds_iff`: when the others go on. -/

namespace Tokilake.Smux.Blocking

open Lib.Run Lib.Calls Smux.Wire Smux.Flow Smux.Bucket List
open Smux.Readers (Config)

/-! ### Progress -/

def reading : Recv → Bool
  | .header | .payload _ | .cleanup | .ended => true
  | _ => false

variable (cfg : Config)

variable (s : State)

def Reads : Prop := ∃ n t, run (step cfg) s (replicate n .recv) = some t ∧ reading t.recv = true

def inner : Label → Bool
  | .recv | .openLock | .openSend | .write | .written true => true
  | _ => false

def Opens : Prop :=
  ∃ labels t, (∀ a ∈ labels, inner a = true) ∧ run (step cfg) s labels = some t ∧ t.opening = .idle

/-- **The session proceeds** without the application, while it is open. -/
def Proceeds : Prop := s.closed = false → Reads cfg s ∧ Opens cfg s

/-! ### Room -/

def arrival : Label → Option Frame
  | .header (some h) =>
    if s.recv = .header ∧ h.version = cfg.version ∧ h.length = 0 then some (frameOf h []) else none
  | .payload (some data) =>
    match s.recv with
    | .payload h => if data.length = h.length then some (frameOf h data) else none
    | _ => none
  | _ => none

def roomFor (f : Frame) : Prop :=
  if f.cmd = cmdSyn then s.backlog.length < acceptBacklog
  else if f.cmd = cmdPsh then
    ∀ k st, s.table f.streamId = some k → s.streams[k]? = some st →
      st.dropped = true ∨ st.queue.length < streamCapacity
  else True

def Roomy (a : Label) : Prop :=
  s.closed = false → ∀ f, arrival cfg s a = some f →
    (f.cmd = cmdUpd ∧ f.data.length ≠ 8) ∨ (roomFor s f ∧ f.data.length < s.bucket)

def Free : Prop :=
  match s.recv with
  | .top | .tokens | .parked => 0 < s.bucket
  | .deliver k _ _ => 0 < s.bucket ∧ ∃ st, s.streams[k]? = some st ∧
      (st.dropped = true ∨ st.queue.length < streamCapacity)
  | .accept _ => 0 < s.bucket ∧ s.backlog.length < acceptBacklog
  | .check | .header | .payload _ | .cleanup | .ended => True

def Signalled : Prop := s.recv = .parked → 0 < s.bucket → s.bucketPermit = true

variable {cfg : Config} {s t : State} {a : Label} {f : Frame}

/-! ### The receive loop by itself -/

lemma Reads.of_loops (h : Loops cfg s t) (ht : Reads cfg t) : Reads cfg s := by
  obtain ⟨n, u, hu, hreading⟩ := ht
  exact ⟨n + 1, u, run_cons.mpr ⟨t, recvStep_iff.mpr h, hu⟩, hreading⟩

lemma reads_of_reading (h : reading s.recv = true) : Reads cfg s := ⟨0, s, rfl, h⟩

lemma reads_tokens (hrecv : s.recv = .tokens) (hpos : 0 < s.bucket) (hopen : s.closed = false) :
    Reads cfg s :=
  .of_loops (.pass hrecv (.inl hpos)) (.of_loops (.await rfl hopen) (reads_of_reading rfl))

lemma reads_top (hv : cfg.version = 2) (hrecv : s.recv = .top) (hpos : 0 < s.bucket)
    (hopen : s.closed = false) : Reads cfg s :=
  .of_loops (.test hrecv hopen hv) (reads_tokens rfl hpos hopen)

lemma reads_of_free (hv : cfg.version = 2) (hs : Signalled s) (hopen : s.closed = false)
    (hfree : Free s) : Reads cfg s := by
  unfold Free at hfree
  split at hfree
  · rename_i hrecv
    exact reads_top hv hrecv hfree hopen
  · rename_i hrecv
    exact reads_tokens hrecv hfree hopen
  · rename_i hrecv
    exact .of_loops (.wake hrecv (hs hrecv hfree)) (reads_tokens rfl hfree hopen)
  · rename_i hrecv
    obtain ⟨hpos, st, hst, hroom⟩ := hfree
    by_cases hdropped : st.dropped = true
    · exact .of_loops (.refused hrecv hst hdropped) (reads_top hv rfl hpos hopen)
    · exact .of_loops (.delivered hrecv hst (by simpa using hdropped) (hroom.resolve_left hdropped))
        (reads_top hv rfl hpos hopen)
  · rename_i hrecv
    exact .of_loops (.queued hrecv hfree.2) (reads_top hv rfl hfree.1 hopen)
  · rename_i hrecv
    exact .of_loops (.await hrecv hopen) (reads_of_reading rfl)
  all_goals
    rename_i hrecv
    exact reads_of_reading (by rw [hrecv]; rfl)

lemma not_free_loops (hv : cfg.version = 2) (hopen : s.closed = false) (hs : ¬ Free s)
    (h : Loops cfg s t) : t.closed = false ∧ ¬ Free t := by
  cases h with
  | leave _ hclosed =>
    rw [hopen] at hclosed
    cases hclosed
  | test h | park h | wake h => exact ⟨hopen, by simpa [Free, h] using hs⟩
  | skip _ _ hv' => exact absurd hv hv'
  | pass h hpass =>
    simp only [Free, h] at hs
    exact absurd (hpass.resolve_right (by simp [hopen])) hs
  | await h | clear h => simp [Free, h] at hs
  | refused h hst hdropped =>
    refine ⟨hopen, fun hpos => hs ?_⟩
    simp only [Free, h]
    exact ⟨hpos, _, hst, .inl hdropped⟩
  | delivered h hst _ hroom =>
    refine ⟨hopen, fun hpos => hs ?_⟩
    simp only [Free, h]
    exact ⟨hpos, _, hst, .inr hroom⟩
  | queued h hroom =>
    refine ⟨hopen, fun hpos => hs ?_⟩
    simp only [Free, h]
    exact ⟨hpos, hroom⟩

lemma free_of_reads (hv : cfg.version = 2) (hopen : s.closed = false) (h : Reads cfg s) :
    Free s := by
  obtain ⟨n, t, ht, hreading⟩ := h
  by_contra hs
  have hrun : ∀ n (s : State), s.closed = false → ¬ Free s →
      run (step cfg) s (replicate n .recv) = some t → ¬ Free t := by
    intro n
    induction n with
    | zero =>
      intro s _ hs h
      cases h
      exact hs
    | succ n ih =>
      intro s hopen hs h
      obtain ⟨u, hu, h⟩ := run_cons.mp h
      obtain ⟨hopen', hs'⟩ := not_free_loops hv hopen hs (recvStep_iff.mp hu)
      exact ih u hopen' hs' h
  refine hrun n s hopen hs ht ?_
  unfold Free
  cases hrecv : t.recv <;> simp_all [reading]

/-! ### `open` -/

lemma Opens.of_step (ha : inner a = true) (h : step cfg s a = some t) (ht : Opens cfg t) :
    Opens cfg s := by
  obtain ⟨labels, u, hlabels, hu, hidle⟩ := ht
  exact ⟨a :: labels, u, by simpa [ha] using hlabels, run_cons.mpr ⟨t, h, hu⟩, hidle⟩

lemma opens_of_room {k : ℕ} {id : UInt32} (h : s.opening = .sending k id)
    (hroom : s.writeLoop = .ended ∨ s.ctrl.length < Session.channelCapacity) : Opens cfg s := by
  have hsend : ∃ t, s.sendCtrl (.syn id) = some t := by
    unfold State.sendCtrl
    split_ifs with hended hlength
    · exact ⟨_, rfl⟩
    · exact ⟨_, rfl⟩
    · exact absurd hroom (by simp [hended, hlength])
  obtain ⟨t, ht⟩ := hsend
  refine .of_step (a := .openSend) rfl (by simp only [step, openSend, h, ht]; rfl) ?_
  exact ⟨[], _, by simp, rfl, rfl⟩

lemma opens_select {k : ℕ} {id : UInt32} (h : s.opening = .sending k id)
    (hselect : s.writeLoop = .select)
    (hshorter : ∀ t : State, t.opening = .sending k id → t.writeLoop = .top →
      t.ctrl.length < s.ctrl.length → Opens cfg t) : Opens cfg s := by
  cases hctrl : s.ctrl with
  | nil => exact opens_of_room h (.inr (by rw [hctrl]; decide))
  | cons req ctrl =>
    refine .of_step (a := .write) rfl (t := { s with
      ctrl
      writeLoop := .writing (req.frame cfg.version) false }) ?_ ?_
    · simp only [step, writeStep, hselect, hctrl]
    · refine .of_step (a := .written true) rfl rfl ?_
      exact hshorter { s with ctrl, writeLoop := .top } h rfl (by simp [hctrl])

lemma opens_top {k : ℕ} {id : UInt32} (h : s.opening = .sending k id) (htop : s.writeLoop = .top) :
    Opens cfg s := by
  generalize hn : s.ctrl.length = n
  induction n using Nat.strong_induction_on generalizing s with
  | _ n ih =>
    cases hclosed : s.closed with
    | true =>
      refine .of_step (a := .write) rfl (t := { s with writeLoop := .ended }) ?_
        (opens_of_room h (.inl rfl))
      simp [step, writeStep, htop, hclosed]
    | false =>
      refine .of_step (a := .write) rfl (t := { s with writeLoop := .select }) ?_
        (opens_select h rfl fun t ht ht' hlt => ih _ (hn ▸ hlt) ht ht' rfl)
      simp [step, writeStep, htop, hclosed]

lemma opens_sending {k : ℕ} {id : UInt32} (h : s.opening = .sending k id) : Opens cfg s := by
  cases hloop : s.writeLoop with
  | top => exact opens_top h hloop
  | select => exact opens_select h hloop fun t ht htop _ => opens_top ht htop
  | writing f nop =>
    refine .of_step (a := .written true) rfl (t := { s with writeLoop := .top }) ?_
      (opens_top h rfl)
    simp [step, onWritten, hloop]
  | ended => exact opens_of_room h (.inl hloop)

lemma opens_locking {id : UInt32} (h : s.opening = .locking id) (hlocks : s.recv.locks = false) :
    Opens cfg s := by
  refine .of_step (a := .openLock) rfl (t := { s.register id true with
    opening := .sending s.streams.length id }) ?_ (opens_sending rfl)
  simp [step, openLock, h, hlocks]

lemma opens_of_free (hfree : Free s) : Opens cfg s := by
  cases hopening : s.opening with
  | idle => exact ⟨[], s, nofun, rfl, hopening⟩
  | sending k id => exact opens_sending hopening
  | locking id =>
    cases hlocks : s.recv.locks with
    | false => exact opens_locking hopening hlocks
    | true =>
      -- the loop delivers the payload it has in hand and leaves the lock
      unfold Free at hfree
      split at hfree
      case h_4 k id data hrecv =>
        obtain ⟨-, st, hst, hroom⟩ := hfree
        by_cases hdropped : st.dropped = true
        · exact .of_step (a := .recv) rfl (recvStep_iff.mpr (.refused hrecv hst hdropped))
            (opens_locking hopening rfl)
        · exact .of_step (a := .recv) rfl (recvStep_iff.mpr (.delivered hrecv hst
            (by simpa using hdropped) (hroom.resolve_left hdropped)))
            (opens_locking hopening rfl)
      all_goals
        rename_i hrecv
        rw [hrecv] at hlocks
        cases hlocks

lemma proceeds_iff_free (hv : cfg.version = 2) (hs : Signalled s) :
    Proceeds cfg s ↔ (s.closed = false → Free s) := by
  constructor
  · exact fun h hopen => free_of_reads hv hopen (h hopen).1
  · exact fun h hopen => ⟨reads_of_free hv hs hopen (h hopen), opens_of_free (h hopen)⟩

/-! ### Steps -/

structure Sane (s : State) : Prop where
  inv : Inv s
  entries : Entries s
  signalled : Signalled s

lemma sane_init (cfg : Config) (isClient : Bool) : Sane (init cfg isClient) :=
  ⟨inv_init cfg isClient, entries_init cfg isClient, nofun⟩

lemma sane_step (hv : cfg.version = 2) (hs : Sane s) (h : step cfg s a = some t) : Sane t := by
  refine ⟨inv_step hv hs.inv h, entries_step hs.entries h, ?_⟩
  cases ha : Label.receives a with
  | false =>
    have htokens := tokens_step hv hs.inv ha h
    intro hparked hpos
    rw [htokens.recv] at hparked
    by_cases hbucket : 0 < s.bucket
    · exact (keeps_step ha h).permit (hs.signalled hparked hbucket)
    · exact htokens.permit (by omega) (by omega)
  | true =>
    rcases receives_cases ha h with h | ⟨recv, hrecv, rfl⟩ | ⟨bucket, f, hf⟩
    · cases h with
      | park _ hempty => exact fun _ hpos => absurd hempty (by simpa using hpos)
      | _ => exact nofun
    · exact fun hparked => absurd hparked hrecv
    · cases hf <;> exact nofun

/-- **No wake-up is lost.** -/
theorem wakeup_kept (cfg : Config) (isClient : Bool) (labels : List Label) :
    Stays (step (v2 cfg)) Signalled (init (v2 cfg) isClient) labels := fun _ _ h =>
  (run_invariant' (sane_step rfl) (sane_init ..) h).signalled

lemma free_dispatched (hv : cfg.version = 2) (hs : Entries s) (hf : Dispatched cfg s f t) :
    Free t ↔ (f.cmd = cmdUpd ∧ f.data.length ≠ 8) ∨ (roomFor s f ∧ 0 < s.bucket) := by
  have hother (h : f.cmd ≠ cmdUpd) :
      (f.cmd = cmdUpd ∧ f.data.length ≠ 8) ∨ (roomFor s f ∧ 0 < s.bucket) ↔
        roomFor s f ∧ 0 < s.bucket := by
    simp [h]
  cases hf with
  | syn h =>
    rw [hother (by rw [h]; decide), roomFor, if_pos h, and_comm]
    rfl
  | fin h =>
    have hf : Dispatched cfg s f { s.finish f.streamId with recv := .top } := .fin h
    have hbucket := (dispatched_frame hf).1
    rw [hother (by rw [h]; decide), roomFor, if_neg (by rw [h]; decide), if_neg (by rw [h]; decide),
      true_and, ← hbucket]
    rfl
  | push h hk =>
    obtain ⟨st, hst, -⟩ := hs _ _ hk
    rw [hother (by rw [h]; decide), roomFor, if_neg (by rw [h]; decide), if_pos h]
    constructor
    · rintro ⟨hpos, st', hst', hroom⟩
      refine ⟨fun j st'' hj hst'' => ?_, hpos⟩
      obtain rfl := Option.some.inj (hk.symm.trans hj)
      obtain rfl := Option.some.inj (hst'.symm.trans hst'')
      exact hroom
    · rintro ⟨hroom, hpos⟩
      exact ⟨hpos, st, hst, hroom _ st hk hst⟩
  | invalid h hbad => simp [Free, h, hbad.resolve_left (not_not_intro hv)]
  | update h _ hlength =>
    rw [roomFor, if_neg (by rw [h]; decide), if_neg (by rw [h]; decide)]
    simp [Free, hlength, State.modify]
  | ignored h _ hk hupd =>
    have hroom : roomFor s f := by
      unfold roomFor
      rw [if_neg h]
      split_ifs with hpsh
      · intro k st hk'
        rw [hk (.inl hpsh)] at hk'
        cases hk'
    have hvalid : ¬ (f.cmd = cmdUpd ∧ f.data.length ≠ 8) := fun hbad => hbad.2 (hupd hbad.1).2
    simp only [hvalid, hroom, false_or, true_and]
    rfl

lemma closed_dispatched (hf : Dispatched cfg s f t) : t.closed = s.closed := by
  cases hf with
  | fin =>
    unfold State.finish
    split <;> rfl
  | _ => rfl

lemma free_keeps (hv : cfg.version = 2) (hs : Sane s) (hfree : Free s)
    (ha : Label.receives a = false) (h : step cfg s a = some t) : Free t := by
  have hkeeps := keeps_step ha h
  have hle := (tokens_step hv hs.inv ha h).bucket
  unfold Free at hfree ⊢
  rw [hkeeps.recv]
  cases hrecv : s.recv with
  | top | tokens | parked =>
    simp only [hrecv] at hfree
    exact lt_of_lt_of_le hfree hle
  | deliver k id data =>
    simp only [hrecv] at hfree
    obtain ⟨hpos, st, hst, hroom⟩ := hfree
    obtain ⟨st', hst', hlater⟩ := hkeeps.streams k st hst
    exact ⟨lt_of_lt_of_le hpos hle, st', hst',
      hroom.imp hlater.dropped fun hlt => lt_of_le_of_lt hlater.queue hlt⟩
  | accept k =>
    simp only [hrecv] at hfree
    exact ⟨lt_of_lt_of_le hfree.1 hle, lt_of_le_of_lt hkeeps.backlog hfree.2⟩
  | _ => trivial

lemma free_loops (hfree : s.closed = false → Free s) (h : Loops cfg s t) :
    t.closed = false → Free t := by
  intro hopen
  cases h with
  | leave | skip | pass | await | clear => trivial
  | test h | wake h => simpa [Free, h] using hfree hopen
  | park h hempty =>
    have hpos : 0 < s.bucket := by simpa [Free, h] using hfree hopen
    exact absurd hempty (by omega)
  | refused h | delivered h | queued h =>
    have hpos := hfree hopen
    simp only [Free, h] at hpos
    exact hpos.1

lemma arrival_receives (h : arrival cfg s a = some f) : Label.receives a = true := by
  cases a <;> first | rfl | cases h

lemma roomy_of_none (h : step cfg s a = none) : Roomy cfg s a := by
  intro _ f hf
  cases a with
  | header x =>
    cases x with
    | none => cases hf
    | some header =>
      simp only [arrival] at hf
      split_ifs at hf with hheader
      simp [step, onHeader, hheader.1, hheader.2] at h
  | payload x =>
    cases x with
    | none => cases hf
    | some data =>
      simp only [arrival] at hf
      split at hf
      · rename_i header hrecv
        split_ifs at hf with hlength
        simp [step, onPayload, hrecv, hlength] at h
      · cases hf
  | _ => cases hf

lemma free_header (hv : cfg.version = 2) (hs : Sane s) {x : Option FrameHeader}
    (h : onHeader cfg s x = some t) : (t.closed = false → Free t) ↔ Roomy cfg s (.header x) := by
  obtain ⟨hrecv, ⟨hversion, rfl⟩ | ⟨header, rfl, hversion, -, ⟨hempty, hf⟩ | ⟨hlength, rfl⟩⟩⟩ :=
    onHeader_cases h
  · refine iff_of_true (fun _ => trivial) fun _ f hf => ?_
    cases x with
    | none => cases hf
    | some header => simp [arrival, hversion header rfl] at hf
  · have hpos := hs.inv.passed (.inl hrecv)
    have harrival : arrival cfg s (.header (some header)) = some (frameOf header []) := by
      simp [arrival, hrecv, hversion, hempty]
    rw [closed_dispatched hf, free_dispatched hv hs.entries hf, Roomy, harrival]
    simp only [Option.some.injEq, forall_eq']
    exact Iff.rfl
  · refine iff_of_true (fun _ => trivial) fun _ f hf => ?_
    simp [arrival, hlength.ne'] at hf

lemma free_payload (hv : cfg.version = 2) (hs : Sane s) {x : Option Bytes}
    (h : onPayload cfg s x = some t) : (t.closed = false → Free t) ↔ Roomy cfg s (.payload x) := by
  obtain ⟨header, hrecv, ⟨rfl, rfl⟩ | ⟨data, rfl, hlength, hf⟩⟩ := onPayload_cases h
  · exact iff_of_true (fun _ => trivial) nofun
  · have harrival : arrival cfg s (.payload (some data)) = some (frameOf header data) := by
      simp [arrival, hrecv, hlength]
    rw [takeTokens_eq hv hs.inv hrecv hlength] at hf
    have hfree := free_dispatched hv
        (s := { s with bucket := s.bucket - data.length }) hs.entries hf
    rw [closed_dispatched hf, hfree, Roomy, harrival]
    simp only [Option.some.injEq, forall_eq', sub_pos]
    exact Iff.rfl

lemma free_step (hv : cfg.version = 2) (hs : Sane s) (hfree : s.closed = false → Free s)
    (h : step cfg s a = some t) : (t.closed = false → Free t) ↔ Roomy cfg s a := by
  cases ha : Label.receives a with
  | false =>
    refine iff_of_true (fun hopen => ?_) fun _ f hf => ?_
    · have hbefore : s.closed = false := by
        by_contra hclosed
        simp [(keeps_step ha h).closed (by simpa using hclosed)] at hopen
      exact free_keeps hv hs (hfree hbefore) ha h
    · rw [arrival_receives hf] at ha
      cases ha
  | true =>
    cases a with
    | recv => exact iff_of_true (free_loops hfree (recvStep_iff.mp h)) fun _ _ => nofun
    | header x => exact free_header hv hs h
    | payload x => exact free_payload hv hs h
    | _ => cases ha

lemma free_init (cfg : Config) (isClient : Bool) :
    Free (init cfg isClient) ↔ 0 < Window.wrap cfg.maxReceiveBuffer := by
  simp only [Free, init]

/-- **Progress of a session** exactly if every frame finds room and leaves tokens. -/
theorem proceeds_iff (cfg : Config) (isClient : Bool) (labels : List Label) :
    Stays (step (v2 cfg)) (Proceeds (v2 cfg)) (init (v2 cfg) isClient) labels ↔
      0 < Window.wrap cfg.maxReceiveBuffer ∧
        Along (step (v2 cfg)) (Roomy (v2 cfg)) (init (v2 cfg) isClient) labels := by
  have hfree : Stays (step (v2 cfg)) (Proceeds (v2 cfg)) (init (v2 cfg) isClient) labels ↔
      Stays (step (v2 cfg)) (fun s => s.closed = false → Free s)
        (init (v2 cfg) isClient) labels := by
    refine forall_congr' fun n => forall_congr' fun t => forall_congr' fun ht => ?_
    exact proceeds_iff_free rfl (run_invariant' (sane_step rfl) (sane_init _ isClient) ht).signalled
  have hrule (hpos : 0 < Window.wrap cfg.maxReceiveBuffer) :
      Stays (step (v2 cfg)) (fun s => s.closed = false → Free s) (init (v2 cfg) isClient) labels ↔
        Along (step (v2 cfg)) (Roomy (v2 cfg)) (init (v2 cfg) isClient) labels :=
    stays_iff_along_of_invariant roomy_of_none (sane_step rfl) (free_step rfl)
      (sane_init (v2 cfg) isClient) fun _ => (free_init (v2 cfg) isClient).mpr hpos
  rw [hfree]
  constructor
  · intro hstays
    have hpos := (free_init (v2 cfg) isClient).mp (hstays 0 _ rfl rfl)
    exact ⟨hpos, (hrule hpos).mp hstays⟩
  · rintro ⟨hpos, halong⟩
    exact (hrule hpos).mpr halong

/-! ### Payloads of one byte -/

structure Within (cfg : Config) (s : State) : Prop where
  receive : waiting s ≤ cfg.maxReceiveBuffer
  stream : ∀ st ∈ s.streams, live st ≤ cfg.maxStreamBuffer

def bytes : Label → ℕ
  | .payload (some data) => data.length
  | _ => 0

lemma waiting_step (hv : cfg.version = 2) (hs : Inv s) (h : step cfg s a = some t) :
    waiting t ≤ waiting s + bytes a := by
  cases ha : Label.receives a with
  | false =>
    have htokens := tokens_step hv hs ha h
    have hle := htokens.bucket
    have hbalance := htokens.balance
    omega
  | true =>
    cases a with
    | recv => exact (recv_step h).2.1.le
    | header x => exact (header_step h).2.1.le
    | payload x =>
      obtain ⟨header, hrecv, ⟨rfl, rfl⟩ | ⟨data, rfl, hlength, hf⟩⟩ := onPayload_cases h
      · exact (waiting_recv (t := { s with recv := .cleanup }) hrecv rfl rfl rfl).le
      · rw [takeTokens_eq hv hs hrecv hlength] at hf
        rw [waiting_dispatched hf, waiting, bytes, frameOf]
        split_ifs <;> dsimp only <;> omega
    | _ => cases ha

lemma waiting_run (hv : cfg.version = 2) : ∀ {labels : List Label} {s : State}, Inv s →
    run (step cfg) s labels = some t → waiting t ≤ waiting s + (labels.map bytes).sum
  | [], _, _, h => by
    cases h
    exact le_rfl
  | a :: labels, s, hs, h => by
    obtain ⟨u, hu, h⟩ := run_cons.mp h
    have hstep := waiting_step hv hs hu
    have hrest := waiting_run hv (inv_step hv hs hu) h
    rw [map_cons, sum_cons]
    omega

lemma within_of_bytes (hv : cfg.version = 2) (isClient : Bool) {labels : List Label}
    (hreceive : (labels.map bytes).sum ≤ cfg.maxReceiveBuffer)
    (hstream : (labels.map bytes).sum ≤ cfg.maxStreamBuffer) :
    Stays (step cfg) (Within cfg) (init cfg isClient) labels := by
  intro n t ht
  have hle : waiting t ≤ (labels.map bytes).sum := by
    have hwaiting := waiting_run hv (inv_init cfg isClient) ht
    have hsum := congrArg (fun l => (l.map bytes).sum) (take_append_drop n labels)
    simp only [map_append, sum_append] at hsum
    have hinit : waiting (init cfg isClient) = 0 := rfl
    omega
  refine ⟨hle.trans hreceive, fun st hst => ?_⟩
  calc live st ≤ total live t.streams := le_total hst
    _ ≤ waiting t := Nat.le_add_right _ _
    _ ≤ cfg.maxStreamBuffer := hle.trans hstream

def push : List Label :=
  [.recv, .recv, .recv, .header (some ⟨2, cmdPsh, 1, 1⟩), .payload (some [0])]

def fill : List Label :=
  [.recv, .recv, .recv, .header (some ⟨2, cmdSyn, 0, 1⟩), .recv, .accept] ++
    (replicate 64 (push ++ [.recv])).flatten ++ push ++ [.openStream]

def filled (n : ℕ) : State :=
  { init (v2 {}) false with
    bucket := 4194304 - n
    table := Function.update (fun _ => none) 1 (some 0)
    streams := [{
      reader := { handle := { id := 1, queue := replicate n [0] } }
      opened := false
      given := true }] }

lemma run_recv {labels : List Label} {u : State} (h : Loops cfg s t)
    (hrest : run (step cfg) t labels = some u) : run (step cfg) s (.recv :: labels) = some u :=
  run_cons.mpr ⟨t, recvStep_iff.mpr h, hrest⟩

lemma run_push {n : ℕ} (hn : n ≤ 64) : run (step (v2 {})) (filled n) push =
    some { filled n with bucket := 4194304 - n - 1, recv := .deliver 0 1 [0] } := by
  have hwrap : Window.wrap (4194304 - n - 1) = 4194304 - n - 1 := wrap_eq_self (by omega) (by omega)
  have hpos : 0 < (filled n).bucket := show (0 : ℤ) < 4194304 - n by omega
  refine run_recv (.test rfl rfl rfl) (run_recv (.pass rfl (.inl hpos)) ?_)
  refine run_recv (.await rfl rfl) (run_cons.mpr ⟨_, rfl, run_cons.mpr ⟨_, ?_, rfl⟩⟩)
  rw [← hwrap]
  rfl

lemma run_delivered {n : ℕ} (hn : n < 64) :
    run (step (v2 {})) (filled n) (push ++ [.recv]) = some (filled (n + 1)) := by
  have hlength : (replicate n ([0] : Bytes)).length < streamCapacity := by
    rw [length_replicate]
    exact hn
  refine run_append.mpr ⟨_, run_push hn.le, run_recv (.delivered rfl rfl rfl hlength) ?_⟩
  have hbucket : (4194304 : ℤ) - n - 1 = 4194304 - (n + 1 : ℕ) := by omega
  have hnext : filled (n + 1) = { filled n with
      bucket := 4194304 - n - 1
      streams := [{
        reader := { handle := { id := 1, queue := replicate n [0] ++ [[0]] } }
        opened := false
        given := true }] } := by
    rw [filled, filled, hbucket, replicate_succ']
  rw [hnext]
  rfl

lemma run_filled : ∀ {n : ℕ}, n ≤ 64 → run (step (v2 {})) (filled 0)
    (replicate n (push ++ [.recv])).flatten = some (filled n)
  | 0, _ => rfl
  | n + 1, hn => by
    rw [replicate_succ', flatten_concat]
    exact run_append.mpr ⟨filled n, run_filled (by omega), run_delivered (by omega)⟩

lemma bytes_filled : ∀ n, ((replicate n (push ++ [.recv])).flatten.map bytes).sum = n
  | 0 => rfl
  | n + 1 => by
    rw [replicate_succ, flatten_cons, map_append, sum_append, bytes_filled n]
    exact Nat.add_comm 1 n

def jammed : State :=
  { filled 64 with
    bucket := 4194304 - 65
    recv := .deliver 0 1 [0]
    nextStreamId := 2
    opening := .locking 0 }

lemma run_fill : run (step (v2 {})) (init (v2 {}) false) fill = some jammed := by
  have hopened : run (step (v2 {})) (init (v2 {}) false)
      [.recv, .recv, .recv, .header (some ⟨2, cmdSyn, 0, 1⟩), .recv, .accept] =
        some (filled 0) := by
    have hwrap : Window.wrap (4194304 : ℕ) = 4194304 := wrap_eq_self (by decide) (by decide)
    have hinit : init (v2 {}) false = { bucket := 4194304, nextStreamId := 0 } := by
      rw [init, ← hwrap]
      rfl
    rw [filled, hinit]
    rfl
  refine run_append.mpr ⟨_, run_append.mpr ⟨_, run_append.mpr ⟨_, hopened, run_filled le_rfl⟩,
    run_push le_rfl⟩, rfl⟩

/-- The loop waits with the lock for room in a channel, and `open` for the lock. -/
structure Jams (s : State) : Prop where
  deliver : ∃ k id data st, s.recv = .deliver k id data ∧ s.streams[k]? = some st ∧
    st.dropped = false ∧ streamCapacity ≤ st.queue.length
  locking : ∃ id, s.opening = .locking id

lemma jams_step (hs : Jams s) (ha : inner a = true) (h : step cfg s a = some t) : Jams t := by
  obtain ⟨⟨k, id, data, st, hrecv, hst, hdropped, hfull⟩, id', hlocking⟩ := hs
  have hsame (h : Same s t) : Jams t := by
    refine ⟨⟨k, id, data, st, h.recv.trans hrecv, h.streams ▸ hst, hdropped, hfull⟩, id', ?_⟩
    simpa [hlocking] using h.opening
  cases a with
  | recv =>
    exfalso
    simp only [step, recvStep, hrecv, hst, hdropped, Bool.false_eq_true, if_false,
      if_neg hfull.not_gt, reduceCtorEq] at h
  | openLock => simp [step, openLock, hlocking, hrecv, Recv.locks] at h
  | openSend => simp [step, openSend, hlocking] at h
  | write | written ok => exact hsame (same_step rfl h)
  | _ => cases ha

lemma not_opens (hs : Jams s) : ¬ Opens cfg s := by
  rintro ⟨labels, t, hlabels, ht, hidle⟩
  obtain ⟨-, id, hlocking⟩ := run_invariant_forall (fun hs ha h => jams_step hs ha h) hs hlabels ht
  rw [hidle] at hlocking
  cases hlocking

lemma not_reads (hv : cfg.version = 2) (hopen : s.closed = false) (hs : Jams s) :
    ¬ Reads cfg s := by
  obtain ⟨⟨k, id, data, st, hrecv, hst, hdropped, hfull⟩, -⟩ := hs
  intro hreads
  have hfree := free_of_reads hv hopen hreads
  simp only [Free, hrecv, hst] at hfree
  obtain ⟨-, st', hst', hroom⟩ := hfree
  cases hst'
  exact hroom.elim (by simp [hdropped]) hfull.not_gt

/-- **`open` hangs** after 65 payloads of one byte to a stream that is not read. -/
theorem open_hangs : ∃ s, run (step (v2 {})) (init (v2 {}) false) fill = some s ∧
      Stays (step (v2 {})) (Within (v2 {})) (init (v2 {}) false) fill ∧
      s.closed = false ∧ ¬ Reads (v2 {}) s ∧ ¬ Opens (v2 {}) s := by
  have hjams : Jams jammed := ⟨⟨0, 1, [0], _, rfl, rfl, rfl, by decide⟩, 0, rfl⟩
  have hbytes : (fill.map bytes).sum = 65 := by
    simp only [fill, map_append, sum_append, bytes_filled]
    rfl
  exact ⟨jammed, run_fill, within_of_bytes rfl false (by rw [hbytes]; decide)
    (by rw [hbytes]; decide),
    rfl, not_reads rfl rfl hjams, not_opens hjams⟩

end Tokilake.Smux.Blocking
