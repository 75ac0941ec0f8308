import Tokilake.Smux.Moves

/-! # Updates for a stream that the peer has closed

The receive loop takes a stream out of the table when a `FIN` comes, and finds the stream of an
update in the table.

* `served_iff`: when updates are served. -/

namespace Tokilake.Smux.HalfClosed

open Lib.Run Smux.Wire Smux.Flow
open Smux.Readers (Config)

def halfClosed (st : Stream) : Bool := st.held && st.finSeen && !st.finSent

def updateFor (s : State) (id : UInt32) : Label → Option (UInt32 × UInt32)
  | .payload (some data) =>
    match s.recv with
    | .payload h =>
      if h.cmd = cmdUpd ∧ h.streamId = id ∧ h.length = 8 ∧ data.length = 8 then
        some (updConsumed data, updWindow data)
      else none
    | _ => none
  | _ => none

def ComesToSend (cfg : Config) (k : ℕ) (t : State) : Prop :=
  ∃ (labels : List Window.Label) (u : State),
    run (step cfg) t (labels.map (Label.sender k)) = some u ∧
    ∃ st payload consumed window, u.streams[k]? = some st ∧
      st.sender.phase = .sending payload consumed window

/-- An update is stored and notified, and a writer it opens the window for comes to send. -/
def Served (cfg : Config) (k : ℕ) (s : State) (a : Label) : Prop :=
  ∀ st u t, s.streams[k]? = some st → halfClosed st = true → updateFor s st.id a = some u →
    step cfg s a = some t → t.streams[k]? = some (st.update u.1 u.2) ∧
        ∀ data, st.sender.phase = .waiting data → s.closed = false →
          u.1 = st.sender.numWritten → 0 < Window.signed u.2 → ComesToSend cfg k t

def NothingNew (k : ℕ) (s : State) (a : Label) : Prop :=
  ∀ st u, s.streams[k]? = some st → halfClosed st = true → updateFor s st.id a = some u →
    st.sender.peerConsumed = u.1 ∧ st.sender.peerWindow = u.2 ∧ st.sender.windowNotify = true

variable {cfg : Config} {s t : State} {a : Label} {k : ℕ} {st : Stream}

/-! ### The writer -/

def asks (closed : Bool) (b : Window.Label) : Bool :=
  b ∈ [.wake, .check closed, .loadConsumed, .loadWindow, .compute]

lemma senderStep_of_asks (cfg : Config) {b : Window.Label} {sender : Window.State}
    (hst : s.streams[k]? = some st) (hheld : st.held = true) (hb : asks s.closed b = true)
    (h : Window.step st.sender b = some sender) :
    step cfg s (.sender k b) = some (s.modify k fun st => { st with sender }) := by
  have hallows : allows cfg s st b = true ∧ payloadOf st.sender b = none := by
    simp only [asks, List.mem_cons, List.not_mem_nil, or_false, decide_eq_true_eq] at hb
    rcases hb with rfl | rfl | rfl | rfl | rfl <;> exact ⟨by simp [allows], rfl⟩
  simp [step, senderStep, hst, hheld, hallows.1, hallows.2, h]

lemma run_of_asks (cfg : Config) :
    ∀ {bs : List Window.Label} {s : State} {st : Stream} {sender : Window.State},
      s.streams[k]? = some st → st.held = true → (∀ b ∈ bs, asks s.closed b = true) →
      run Window.step st.sender bs = some sender →
        ∃ u, run (step cfg) s (bs.map (Label.sender k)) = some u ∧
          u.streams[k]? = some { st with sender }
  | [], s, st, sender, hst, _, _, h => by
    cases h
    exact ⟨s, rfl, hst⟩
  | b :: bs, s, st, sender, hst, hheld, hbs, h => by
    obtain ⟨sender', hb, h⟩ := run_cons.mp h
    have hstep := senderStep_of_asks cfg hst hheld (hbs b (by simp)) hb
    have hst' : (s.modify k fun st => { st with sender := sender' }).streams[k]? =
        some { st with sender := sender' } := by
      simp [State.modify, hst]
    obtain ⟨u, hu, hu'⟩ := run_of_asks cfg hst' hheld (fun c hc => hbs c (by simp [hc])) h
    exact ⟨u, run_cons.mpr ⟨_, hstep, hu⟩, hu'⟩

lemma goes_on {data : Bytes} (hst : s.streams[k]? = some st) (hheld : st.held = true)
    (hopen : s.closed = false) (hwaits : st.sender.phase = .waiting data)
    (hnotify : st.sender.windowNotify = true)
    (hconsumed : st.sender.peerConsumed = st.sender.numWritten)
    (hwindow : 0 < Window.signed st.sender.peerWindow) : ComesToSend cfg k s := by
  have hverdict : ∃ n, Window.verdict st.sender.numWritten st.sender.peerConsumed
      st.sender.peerWindow data.length = .size n := by
    have hrange := st.sender.peerWindow.toNat_lt
    have hwin : Window.win st.sender.numWritten st.sender.numWritten st.sender.peerWindow =
        Window.signed st.sender.peerWindow := by
      rw [Window.win, UInt32.sub_self]
      exact Int.sub_zero _
    have hpos : 0 < Window.wrap (Window.signed st.sender.peerWindow) := by
      rw [Window.signed_eq] at hwindow ⊢
      rw [Window.wrap_eq]
      split_ifs at hwindow ⊢ <;> omega
    rw [Window.verdict, hconsumed, hwin, if_neg (by rw [UInt32.sub_self]; decide), if_pos hpos]
    exact ⟨_, rfl⟩
  obtain ⟨n, hn⟩ := hverdict
  have hsends : run Window.step st.sender [.wake, .check false, .loadConsumed,
      .loadWindow, .compute] =
      some { st.sender with
        windowNotify := false
        phase := .sending (data.take n) st.sender.peerConsumed st.sender.peerWindow } := by
    simp [run, Window.step, hwaits, hnotify, hn]
  obtain ⟨u, hu, hu'⟩ := run_of_asks cfg hst hheld (by rw [hopen]; decide) hsends
  exact ⟨_, u, hu, _, _, _, _, hu', rfl⟩

/-! ### Updates after a `FIN` -/

lemma not_entry {id : UInt32} {j : ℕ} (hs : Entries s) (hst : s.streams[k]? = some st)
    (hfin : st.finSeen = true) (hj : s.table id = some j) : j ≠ k := by
  rintro rfl
  obtain ⟨st', hst', hentry⟩ := hs id j hj
  obtain rfl := Option.some.inj (hst.symm.trans hst')
  have hopen := hentry.finSeen
  rw [hfin] at hopen
  cases hopen

lemma updateFor_eq_some {id : UInt32} {u : UInt32 × UInt32} (h : updateFor s id a = some u) :
    ∃ header data, a = .payload (some data) ∧ s.recv = .payload header ∧ header.cmd = cmdUpd ∧
      data.length = header.length := by
  unfold updateFor at h
  split at h
  · rename_i data
    split at h
    · rename_i header hrecv
      split_ifs at h with hupd
      exact ⟨header, data, rfl, hrecv, hupd.1, hupd.2.2.2.trans hupd.2.2.1.symm⟩
    · cases h
  · cases h

lemma exists_step_of_updateFor (cfg : Config) {id : UInt32} {u : UInt32 × UInt32}
    (h : updateFor s id a = some u) : ∃ t, step cfg s a = some t := by
  obtain ⟨header, data, rfl, hrecv, -, hlength⟩ := updateFor_eq_some h
  simp only [step, onPayload, hrecv, hlength, ne_eq, not_true_eq_false, if_false]
  exact ⟨_, rfl⟩

lemma unchanged {u : UInt32 × UInt32} (hs : Entries s) (hst : s.streams[k]? = some st)
    (hfin : st.finSeen = true) (hu : updateFor s st.id a = some u) (h : step cfg s a = some t) :
    t.streams[k]? = some st ∧ t.closed = s.closed := by
  obtain ⟨header, data, rfl, hrecv, hupd, -⟩ := updateFor_eq_some hu
  obtain ⟨header', hrecv', ⟨hnone, -⟩ | ⟨data', hdata, -, hf⟩⟩ := onPayload_cases h
  · cases hnone
  · obtain rfl : header = header' := by simpa [hrecv] using hrecv'
    obtain ⟨bucket, heq⟩ := takeTokens_bucket cfg s data'.length
    rw [heq] at hf
    have hcmd := hupd
    cases hf with
    | syn hother | fin hother | push hother => exact absurd (hother.symm.trans hcmd) (by decide)
    | update _ _ _ hk =>
      have hne := not_entry hs hst hfin hk
      exact ⟨by simp [State.modify, hne, hst], rfl⟩
    | invalid | ignored => exact ⟨hst, rfl⟩

lemma served_step (hs : Entries s) : Served cfg k s a ↔ NothingNew k s a := by
  constructor
  · intro hserved st u hst hhalf hu
    obtain ⟨t, ht⟩ := exists_step_of_updateFor cfg hu
    have hfin : st.finSeen = true := by
      simp only [halfClosed, Bool.and_eq_true] at hhalf
      exact hhalf.1.2
    obtain ⟨hupdate, -⟩ := hserved st u t hst hhalf hu ht
    rw [(unchanged hs hst hfin hu ht).1] at hupdate
    have hsender := congrArg Stream.sender (Option.some.inj hupdate)
    rw [hsender]
    exact ⟨rfl, rfl, rfl⟩
  · intro hnew st u t hst hhalf hu ht
    obtain ⟨hconsumed, hwindow, hnotify⟩ := hnew st u hst hhalf hu
    simp only [halfClosed, Bool.and_eq_true] at hhalf
    obtain ⟨hsame, hclosed⟩ := unchanged hs hst hhalf.1.2 hu ht
    have hupdate : st.update u.1 u.2 = st := by
      rw [Stream.update, ← hconsumed, ← hwindow, ← hnotify]
    rw [hupdate]
    refine ⟨hsame, fun data hwaits hopen hall hpos => ?_⟩
    exact goes_on hsame hhalf.1.1 (hclosed.trans hopen) hwaits hnotify (hconsumed.trans hall)
      (hwindow ▸ hpos)

/-- **Updates for half closed streams** are served exactly if they say what the writer knows. -/
theorem served_iff (cfg : Config) (isClient : Bool) (k : ℕ) (labels : List Label) :
    Along (step cfg) (Served cfg k) (init cfg isClient) labels ↔
      Along (step cfg) (NothingNew k) (init cfg isClient) labels := by
  have hstays : Stays (step cfg) Entries (init cfg isClient) labels := fun _ _ ht =>
    run_invariant' entries_step (entries_init cfg isClient) ht
  exact ⟨along_imp (fun hs => (served_step hs).mp) hstays,
    along_imp (fun hs => (served_step hs).mpr) hstays⟩

/-! ### A writer that waits forever -/

structure Stuck (data : Bytes) (k : ℕ) (s : State) : Prop where
  entries : Entries s
  waits : s.writeLoop = .ended ∨ ∃ st, s.streams[k]? = some st ∧ st.finSeen = true ∧
    st.sender.windowNotify = false ∧ st.sender.phase = .waiting data

lemma sender_dispatched {f : Frame} (hs : Entries s) (hst : s.streams[k]? = some st)
    (hfin : st.finSeen = true) (hf : Dispatched cfg s f t) :
    ∃ st', t.streams[k]? = some st' ∧ st'.sender = st.sender ∧ st'.finSeen = true := by
  cases hf with
  | syn =>
    exact ⟨st, List.getElem?_append_left (List.getElem?_eq_some_iff.mp hst).1 ▸ hst, rfl, hfin⟩
  | fin =>
    unfold State.finish
    split
    · exact ⟨st, hst, rfl, hfin⟩
    · rename_i j hj
      have hne := not_entry hs hst hfin hj
      exact ⟨st, by simp [State.modify, State.unregister, hne, hst], rfl, hfin⟩
  | update _ _ _ hj =>
    have hne := not_entry hs hst hfin hj
    exact ⟨st, by simp [State.modify, hne, hst], rfl, hfin⟩
  | push | invalid | ignored => exact ⟨st, hst, rfl, hfin⟩

lemma sender_receives (hs : Entries s) (hst : s.streams[k]? = some st) (hfin : st.finSeen = true)
    (ha : Label.receives a = true) (h : step cfg s a = some t) :
    ∃ st', t.streams[k]? = some st' ∧ st'.sender = st.sender ∧ st'.finSeen = true := by
  rcases receives_cases ha h with h | ⟨recv, -, rfl⟩ | ⟨bucket, f, hf⟩
  · cases h with
    | @delivered j id data =>
      by_cases hj : j = k
      · exact ⟨st.enqueue data, by simp [State.modify, hj, hst], rfl, hfin⟩
      · exact ⟨st, by simp [State.modify, hj, hst], rfl, hfin⟩
    | _ => exact ⟨st, hst, rfl, hfin⟩
  · exact ⟨st, hst, rfl, hfin⟩
  · exact sender_dispatched (s := { s with bucket }) hs hst hfin hf

lemma stuck_step {data : Bytes} (hs : Stuck data k s) (h : step cfg s a = some t) :
    Stuck data k t := by
  refine ⟨entries_step hs.entries h, ?_⟩
  cases ha : Label.receives a with
  | false =>
    have hkeeps := keeps_step ha h
    rcases hs.waits with hended | ⟨st, hst, hfin, hnotify, hwaits⟩
    · exact .inl (hkeeps.ended hended)
    obtain ⟨st', hst', hlater⟩ := hkeeps.streams k st hst
    rcases hlater.waits data hwaits hnotify with hended | hwaits'
    · exact .inl (hkeeps.ended hended)
    · exact .inr ⟨st', hst', hlater.finSeen.trans hfin, hlater.notify hnotify, hwaits'⟩
  | true =>
    rcases hs.waits with hended | ⟨st, hst, hfin, hnotify, hwaits⟩
    · exact .inl ((apart_receives ha h).writeLoop.trans hended)
    · obtain ⟨st', hst', hsender, hfin'⟩ := sender_receives hs.entries hst hfin ha h
      exact .inr ⟨st', hst', hfin', by rw [hsender, hnotify], by rw [hsender, hwaits]⟩

def computes : List Label :=
  [.sender 0 (.check false), .sender 0 .loadConsumed, .sender 0 .loadWindow, .sender 0 .compute]

def writes (byte : UInt8) : List Label :=
  .sender 0 (.write [byte]) :: computes ++ [.sender 0 (.send true)]

def updates (consumed window : UInt8) : List Label :=
  [.recv, .recv, .recv, .header (some ⟨2, cmdUpd, 8, 1⟩),
    .payload (some [consumed, 0, 0, 0, window, 0, 0, 0])]

/-- The writer has a third byte and waits; the peer closes its side and acknowledges the second. -/
def lateUpdate : List Label :=
  [.openStream, .openLock, .openSend] ++ writes 7 ++ updates 1 1 ++ writes 8 ++
    .sender 0 (.write [9]) :: computes ++ .sender 0 .wake :: computes ++
    [.recv, .recv, .recv, .header (some ⟨2, cmdFin, 0, 1⟩)] ++ updates 2 1

lemma run_lateUpdate :
    ∃ s st, run (step { version := 2 }) (init { version := 2 } true) lateUpdate = some s ∧
      s.streams[0]? = some st ∧ halfClosed st = true ∧ st.sender.numWritten = 2 ∧
        st.sender.peerConsumed = 1 ∧ st.sender.windowNotify = false ∧
        st.sender.phase = .waiting [9] := by
  refine ⟨_, _, rfl, rfl, ?_, ?_, ?_, ?_, ?_⟩ <;> decide

/-- **The writer waits forever**, until the session ends. -/
theorem writer_waits_forever :
    ∃ s, run (step { version := 2 }) (init { version := 2 } true) lateUpdate = some s ∧
      (∃ st, s.streams[0]? = some st ∧ halfClosed st = true ∧ st.sender.numWritten = 2 ∧
        st.sender.peerConsumed = 1) ∧ ∀ labels t, run (step { version := 2 }) s labels = some t →
        t.writeLoop = .ended ∨ ∃ st, t.streams[0]? = some st ∧ st.sender.phase = .waiting [9] := by
  obtain ⟨s, st, hrun, hst, hhalf, hwritten, hconsumed, hnotify, hwaits⟩ := run_lateUpdate
  refine ⟨s, hrun, ⟨st, hst, hhalf, hwritten, hconsumed⟩, fun labels t ht => ?_⟩
  simp only [halfClosed, Bool.and_eq_true] at hhalf
  have hstuck : Stuck [9] 0 s := by
    refine ⟨run_invariant' entries_step (entries_init _ _) hrun,
      .inr ⟨st, hst, ?_, hnotify, hwaits⟩⟩
    exact hhalf.1.2
  refine (run_invariant' stuck_step hstuck ht).waits.imp_right ?_
  rintro ⟨st', hst', -, -, hwaits'⟩
  exact ⟨st', hst', hwaits'⟩

end Tokilake.Smux.HalfClosed
