import Tokilake.Smux.Moves

/-! # Closing a session

`Session::close` stores a flag that each loop looks at only at its top, so a loop that waits
elsewhere does not see it.

* `shutdown_iff`: when both loops end. -/

namespace Tokilake.Smux.Shutdown

open Lib.Run Smux.Wire Smux.Flow
open Smux.Handles (Handle)
open Smux.Readers (Config)

/-! ### The end of a session -/

def silent : Label → Bool
  | .header _ | .payload _ => false
  | _ => true

def background : Label → Bool
  | .recv | .write | .written true | .tick _ | .sendSpawned => true
  | _ => false

def ReadsToEnd (connected : Bool) (h : Handle) : Prop :=
  ∀ n, ∃ m, ((fun h => (h.read connected (n + 1)).2)^[m] h).taken = h.obtainable ∧
    (((fun h => (h.read connected (n + 1)).2)^[m] h).read connected (n + 1)).1 = some []

structure Down (s : State) : Prop where
  recv : s.recv = .ended
  writeLoop : s.writeLoop = .ended
  reads : ∀ (k : ℕ) st, s.streams[k]? = some st → st.dropped = false →
    ReadsToEnd (s.connected k st) st.reader.handle

/-- From wherever steps on a silent transport lead, the tasks come to their end. -/
def ShutsDown (cfg : Config) (s : State) : Prop :=
  ∀ labels t, (∀ a ∈ labels, silent a = true) → run (step cfg) (close s) labels = some t →
    ∃ labels' u, (∀ a ∈ labels', background a = true) ∧ run (step cfg) t labels' = some u ∧ Down u

/-- The receive loop is in no read and has room; no stream came into the table behind it. -/
def RecvReady (s : State) : Prop :=
  match s.recv with
  | .header | .payload _ => False
  | .deliver k _ _ => ∃ st, s.streams[k]? = some st ∧
      (st.dropped = true ∨ st.queue.length < streamCapacity)
  | .accept _ => s.backlog.length < acceptBacklog
  | .ended => ∀ (k : ℕ) st, s.streams[k]? = some st → st.dropped = false → s.table st.id ≠ some k
  | .top | .tokens | .parked | .check | .cleanup => True

def WriteReady (cfg : Config) (s : State) : Prop :=
  s.writeLoop = .select → s.ctrl ≠ [] ∨ s.data ≠ [] ∨ s.spawned ≠ [] ∨ cfg.keepAliveDisabled = false

structure Ready (cfg : Config) (s : State) : Prop where
  recv : RecvReady s
  write : WriteReady cfg s

variable {cfg : Config} {s t : State} {a : Label}

/-! ### Reading to the end -/

lemma read_of_remaining {h : Handle} (connected : Bool) (hrem : h.remaining = []) (n : ℕ) :
    (h.read connected n).1 = if connected && !h.finReceived then none else some [] := by
  obtain ⟨hbuf, hqueue⟩ := List.append_eq_nil_iff.mp hrem
  unfold Handle.read
  rw [if_neg (not_not_intro hbuf)]
  cases hfin : h.finReceived with
  | true => simp
  | false =>
    have hempty : ∀ queue : List Bytes, queue.flatten = [] →
        (h.receive connected n queue).1 = if connected then none else some [] := by
      intro queue
      induction queue with
      | nil => exact fun _ => Readers.receive_nil connected n h
      | cons data queue ih =>
        intro hflat
        obtain ⟨hdata, hrest⟩ := List.append_eq_nil_iff.mp hflat
        rw [Handle.receive, if_pos hdata]
        exact ih hrest
    simpa [hfin] using hempty h.queue (by simpa [hfin] using hqueue)

lemma remaining_of_taken {connected : Bool} {h : Handle} {n m : ℕ}
    (htaken : ((fun h => (h.read connected n).2)^[m] h).taken = h.obtainable) :
    ((fun h => (h.read connected n).2)^[m] h).remaining = [] ∧ (connected = true →
        ((fun h => (h.read connected n).2)^[m] h).finReceived = h.finReceived) := by
  have hiter : ∀ m (h : Handle),
      ((fun h => (h.read connected n).2)^[m] h).obtainable = h.obtainable ∧
      (connected = true →
        ((fun h => (h.read connected n).2)^[m] h).finReceived = h.finReceived) := by
    intro m
    induction m with
    | zero => exact fun h => ⟨rfl, fun _ => rfl⟩
    | succ m ih =>
      intro h
      obtain ⟨hobt, hfin⟩ := ih (h.read connected n).2
      have hsame := Handles.sameStream_read connected h n
      exact ⟨hobt.trans hsame.obtainable, fun hc => (hfin hc).trans (hsame.finReceived hc)⟩
  obtain ⟨hobt, hfin⟩ := hiter m h
  refine ⟨?_, hfin⟩
  rw [← htaken, Handle.obtainable] at hobt
  simpa using hobt

lemma readsToEnd_iff {h : Handle} {connected : Bool}
    (hfin : connected = true → h.finReceived = false) : ReadsToEnd connected h ↔
      connected = false := by
  constructor
  · intro hreads
    obtain ⟨m, htaken, hend⟩ := hreads 0
    obtain ⟨hrem, hsame⟩ := remaining_of_taken htaken
    cases hc : connected with
    | false => rfl
    | true =>
      subst hc
      rw [read_of_remaining true hrem, hsame rfl, hfin rfl] at hend
      cases hend
  · rintro rfl n
    obtain ⟨m, htaken⟩ := Handles.reads_all false n h
    refine ⟨m, htaken, ?_⟩
    rw [read_of_remaining false (remaining_of_taken htaken).1]
    rfl

/-! ### A loop that does not see the flag -/

lemma recvReady_of_loops (h : Loops cfg s t) : RecvReady s := by
  cases h with
  | leave h => rcases h with h | h <;> simp [RecvReady, h]
  | refused h hst hdropped =>
    simp only [RecvReady, h]
    exact ⟨_, hst, .inl hdropped⟩
  | delivered h hst _ hroom =>
    simp only [RecvReady, h]
    exact ⟨_, hst, .inr hroom⟩
  | queued h hroom => simpa only [RecvReady, h] using hroom
  | test h | skip h | park h | pass h | wake h | await h | clear h => simp [RecvReady, h]

lemma recvReady_same (h : Same s t) : RecvReady t ↔ RecvReady s := by
  unfold RecvReady
  rw [h.recv, h.streams, h.backlog, h.table]

lemma not_recvReady_step (hs : ¬ RecvReady s) (ha : background a = true)
    (h : step cfg s a = some t) : ¬ RecvReady t := by
  by_cases hrecv : a = .recv
  · subst hrecv
    exact absurd (recvReady_of_loops (recvStep_iff.mp h)) hs
  · have haside : Label.aside a = true := by
      cases a <;> first | rfl | exact absurd rfl hrecv | cases ha
    rwa [recvReady_same (same_step haside h)]

lemma not_writeReady_step (hs : ¬ WriteReady cfg s) (ha : background a = true)
    (h : step cfg s a = some t) : ¬ WriteReady cfg t := by
  simp only [WriteReady, Classical.not_imp, not_or, not_not, Bool.not_eq_false] at hs ⊢
  obtain ⟨hselect, hctrl, hdata, hspawned, hdisabled⟩ := hs
  cases a with
  | recv =>
    have hapart := apart_receives rfl h
    rw [hapart.writeLoop, hapart.ctrl, hapart.data, hapart.spawned]
    exact ⟨hselect, hctrl, hdata, hspawned, hdisabled⟩
  | write => simp [step, writeStep, hselect, hctrl, hdata] at h
  | written ok => simp [step, onWritten, hselect] at h
  | tick timedOut => simp [step, onTick, hdisabled] at h
  | sendSpawned => simp [step, sendSpawned, hspawned] at h
  | _ => cases ha

lemma ready_of_down (hs : Entries s) (h : Down s) : Ready cfg s := by
  refine ⟨?_, fun hselect => ?_⟩
  · simp only [RecvReady, h.recv]
    intro k st hst hdropped hk
    have hreads := (readsToEnd_iff fun _ => ?_).mp (h.reads k st hst hdropped)
    · simp [hk] at hreads
    · obtain ⟨st', hst', hentry⟩ := hs _ _ hk
      obtain rfl := Option.some.inj (hst.symm.trans hst')
      exact hentry.finReceived
  · rw [h.writeLoop] at hselect
    cases hselect

/-! ### After `close` -/

structure Closing (cfg : Config) (s : State) : Prop where
  closed : s.closed = true
  idle : s.opening = .idle
  permit : s.recv = .parked → s.bucketPermit = true
  ready : Ready cfg s

lemma closing_close (hidle : s.opening = .idle) (h : Ready cfg s) : Closing cfg (close s) :=
  ⟨rfl, hidle, fun _ => rfl, h.recv, h.write⟩

lemma closing_loops (hs : Closing cfg s) (h : Loops cfg s t) : Closing cfg t := by
  have hapart := apart_receives (a := .recv) rfl (recvStep_iff.mpr h)
  have hwrite : WriteReady cfg t := by
    unfold WriteReady
    rw [hapart.writeLoop, hapart.ctrl, hapart.data, hapart.spawned]
    exact hs.ready.write
  have hidle := hapart.opening.trans hs.idle
  have hclosed := hs.closed
  cases h with
  | test _ hopen | skip _ hopen | park _ _ hopen | await _ hopen =>
    rw [hclosed] at hopen
    cases hopen
  | clear => exact ⟨rfl, hidle, nofun, fun _ _ _ _ => nofun, hwrite⟩
  | leave | pass | wake | refused | delivered | queued =>
    exact ⟨hclosed, hidle, nofun, trivial, hwrite⟩

lemma recvReady_keeps (hs : Closing cfg s) (hkeeps : Keeps s t) : RecvReady t := by
  have hready := hs.ready.recv
  unfold RecvReady at hready ⊢
  rw [hkeeps.recv]
  cases hrecv : s.recv with
  | header | payload _ => simp only [hrecv] at hready
  | deliver k id data =>
    simp only [hrecv] at hready
    obtain ⟨st, hst, hroom⟩ := hready
    obtain ⟨st', hst', hlater⟩ := hkeeps.streams k st hst
    exact ⟨st', hst', hroom.imp hlater.dropped fun hlt => lt_of_le_of_lt hlater.queue hlt⟩
  | accept k =>
    simp only [hrecv] at hready
    exact lt_of_le_of_lt hkeeps.backlog hready
  | ended =>
    simp only [hrecv] at hready
    obtain ⟨htable, hlength⟩ : t.table = s.table ∧ t.streams.length = s.streams.length := by
      refine hkeeps.table.resolve_right ?_
      rintro ⟨id, hlocking, -⟩
      rw [hs.idle] at hlocking
      cases hlocking
    intro k st' hst' hdropped
    have hlt := hlength ▸ (List.getElem?_eq_some_iff.mp hst').1
    obtain ⟨st'', hst'', hlater⟩ := hkeeps.streams k _ (List.getElem?_eq_getElem hlt)
    obtain rfl := Option.some.inj (hst'.symm.trans hst'')
    rw [htable, hlater.id]
    refine hready k _ (List.getElem?_eq_getElem hlt) ?_
    by_contra hd
    rw [hlater.dropped (by simpa using hd)] at hdropped
    cases hdropped
  | _ => trivial

lemma writeReady_iff :
    WriteReady cfg s ↔ (s.writeLoop = .select → s.requests ∨ cfg.keepAliveDisabled = false) := by
  simp only [WriteReady, State.requests, or_assoc]

lemma writeReady_keeps (hs : Closing cfg s) (h : Keeps s t) : WriteReady cfg t := by
  refine writeReady_iff.mpr fun hselect => ?_
  obtain ⟨hbefore, hrequests⟩ := h.requests hselect hs.closed
  exact (writeReady_iff.mp hs.ready.write hbefore).imp_left hrequests

lemma closing_step (hs : Closing cfg s) (ha : silent a = true) (h : step cfg s a = some t) :
    Closing cfg t := by
  cases hreceives : Label.receives a with
  | false =>
    have hkeeps := keeps_step hreceives h
    refine ⟨hkeeps.closed hs.closed, hkeeps.opening hs.idle hs.closed, fun hparked => ?_,
      recvReady_keeps hs hkeeps, writeReady_keeps hs hkeeps⟩
    exact hkeeps.permit (hs.permit (hkeeps.recv ▸ hparked))
  | true =>
    cases a with
    | recv => exact closing_loops hs (recvStep_iff.mp h)
    | header | payload => cases ha
    | _ => cases hreceives

/-! ### The tasks come to an end -/

def LeadsTo (cfg : Config) (P : State → Prop) (s : State) : Prop :=
  ∃ labels t, (∀ a ∈ labels, background a = true) ∧ run (step cfg) s labels = some t ∧ P t

variable {P : State → Prop}

lemma leadsTo_of (h : P s) : LeadsTo cfg P s := ⟨[], s, nofun, rfl, h⟩

lemma LeadsTo.of_step (ha : background a = true) (h : step cfg s a = some t)
    (ht : LeadsTo cfg P t) : LeadsTo cfg P s := by
  obtain ⟨labels, u, hlabels, hu, hP⟩ := ht
  exact ⟨a :: labels, u, by simpa [ha] using hlabels, run_cons.mpr ⟨t, h, hu⟩, hP⟩

lemma LeadsTo.of_loops (h : Loops cfg s t) (ht : LeadsTo cfg P t) : LeadsTo cfg P s :=
  .of_step (a := .recv) rfl (recvStep_iff.mpr h) ht

lemma leadsTo_writing {f : Frame} {nop : Bool} (hs : s.closed = true)
    (h : s.writeLoop = .writing f nop) : LeadsTo cfg (fun t => t.writeLoop = .ended) s := by
  refine .of_step (a := .written true) rfl (t := { s with writeLoop := .top }) ?_ ?_
  · simp [step, onWritten, h]
  · refine .of_step (a := .write) rfl (t := { s with writeLoop := .ended }) ?_ (leadsTo_of rfl)
    simp [step, writeStep, hs]

lemma leadsTo_request (hs : s.closed = true) (h : s.writeLoop = .select)
    (hrequest : s.ctrl ≠ [] ∨ s.data ≠ []) : LeadsTo cfg (fun t => t.writeLoop = .ended) s := by
  cases hctrl : s.ctrl with
  | cons req ctrl =>
    refine .of_step (a := .write) rfl (t := { s with
      ctrl
      writeLoop := .writing (req.frame cfg.version) false }) ?_ (leadsTo_writing hs rfl)
    simp only [step, writeStep, h, hctrl]
  | nil =>
    cases hdata : s.data with
    | cons req data =>
      refine .of_step (a := .write) rfl (t := { s with
        data
        writeLoop := .writing (req.frame cfg.version) false }) ?_ (leadsTo_writing hs rfl)
      simp only [step, writeStep, h, hctrl, hdata]
    | nil => exact absurd hrequest (by simp [hctrl, hdata])

lemma write_ends (hs : Closing cfg s) : LeadsTo cfg (fun t => t.writeLoop = .ended) s := by
  cases hloop : s.writeLoop with
  | top =>
    refine .of_step (a := .write) rfl (t := { s with writeLoop := .ended }) ?_ (leadsTo_of rfl)
    simp [step, writeStep, hloop, hs.closed]
  | writing f nop => exact leadsTo_writing hs.closed hloop
  | ended => exact leadsTo_of hloop
  | select =>
    by_cases hrequest : s.ctrl ≠ [] ∨ s.data ≠ []
    · exact leadsTo_request hs.closed hloop hrequest
    obtain ⟨hctrl, hdata⟩ : s.ctrl = [] ∧ s.data = [] := by simpa [not_or] using hrequest
    rcases hs.ready.write hloop with h | h | hspawned | hdisabled
    · exact absurd (.inl h) hrequest
    · exact absurd (.inr h) hrequest
    · obtain ⟨req, spawned, hcons⟩ := List.exists_cons_of_ne_nil hspawned
      refine .of_step (a := .sendSpawned) rfl
        (t := { s with spawned, ctrl := [req] }) ?_
        (leadsTo_request hs.closed hloop (.inl (List.cons_ne_nil req [])))
      simp [step, sendSpawned, hcons, State.sendCtrl, hloop, hctrl, Session.channelCapacity]
    · refine .of_step (a := .tick false) rfl
        (t := { s with writeLoop := .writing (Frame.nop cfg.version) true }) ?_
        (leadsTo_writing hs.closed rfl)
      simp [step, onTick, hdisabled, hloop, hctrl, hdata]

lemma leadsTo_cleanup (h : s.recv = .cleanup) (hended : s.writeLoop = .ended) :
    LeadsTo cfg (fun t => t.recv = .ended ∧ t.writeLoop = .ended) s :=
  .of_loops (.clear h) (leadsTo_of ⟨rfl, hended⟩)

lemma leadsTo_top (hclosed : s.closed = true) (h : s.recv = .top ∨ s.recv = .check)
    (hended : s.writeLoop = .ended) :
    LeadsTo cfg (fun t => t.recv = .ended ∧ t.writeLoop = .ended) s :=
  .of_loops (.leave h hclosed) (leadsTo_cleanup rfl hended)

lemma leadsTo_tokens (hclosed : s.closed = true) (h : s.recv = .tokens)
    (hended : s.writeLoop = .ended) :
    LeadsTo cfg (fun t => t.recv = .ended ∧ t.writeLoop = .ended) s :=
  .of_loops (.pass h (.inr hclosed)) (leadsTo_top hclosed (.inr rfl) hended)

lemma recv_ends (hs : Closing cfg s) (hended : s.writeLoop = .ended) :
    LeadsTo cfg (fun t => t.recv = .ended ∧ t.writeLoop = .ended) s := by
  have hclosed := hs.closed
  have hready := hs.ready.recv
  cases hrecv : s.recv with
  | top => exact leadsTo_top hclosed (.inl hrecv) hended
  | tokens => exact leadsTo_tokens hclosed hrecv hended
  | parked => exact .of_loops (.wake hrecv (hs.permit hrecv)) (leadsTo_tokens hclosed rfl hended)
  | check => exact leadsTo_top hclosed (.inr hrecv) hended
  | header | payload => simp only [RecvReady, hrecv] at hready
  | deliver k id data =>
    simp only [RecvReady, hrecv] at hready
    obtain ⟨st, hst, hroom⟩ := hready
    by_cases hdropped : st.dropped = true
    · exact .of_loops (.refused hrecv hst hdropped) (leadsTo_top hclosed (.inl rfl) hended)
    · exact .of_loops (.delivered hrecv hst (by simpa using hdropped) (hroom.resolve_left hdropped))
        (leadsTo_top hclosed (.inl rfl) hended)
  | accept k =>
    simp only [RecvReady, hrecv] at hready
    exact .of_loops (.queued hrecv hready) (leadsTo_top hclosed (.inl rfl) hended)
  | cleanup => exact leadsTo_cleanup hrecv hended
  | ended => exact leadsTo_of ⟨hrecv, hended⟩

lemma silent_of_background (h : background a = true) : silent a = true := by
  cases a <;> first | rfl | cases h

lemma down_of_closing (hs : Closing cfg s) (hrecv : s.recv = .ended)
    (hended : s.writeLoop = .ended) : Down s := by
  refine ⟨hrecv, hended, fun k st hst hdropped => ?_⟩
  have hready := hs.ready.recv
  simp only [RecvReady, hrecv] at hready
  have hc : s.connected k st = false := by simpa using hready k st hst hdropped
  exact (readsToEnd_iff fun h => absurd (hc.symm.trans h) Bool.false_ne_true).mpr hc

lemma leadsTo_down (hs : Closing cfg s) : LeadsTo cfg Down s := by
  obtain ⟨labels, t, hlabels, ht, hended⟩ := write_ends hs
  have hclosing : ∀ {labels : List Label} {s t : State}, Closing cfg s →
      (∀ a ∈ labels, background a = true) → run (step cfg) s labels = some t → Closing cfg t :=
    run_invariant_forall fun hs ha h => closing_step hs (silent_of_background ha) h
  have hs' := hclosing hs hlabels ht
  obtain ⟨labels', u, hlabels', hu, hrecv, hended'⟩ := recv_ends hs' hended
  refine ⟨labels ++ labels', u, fun a ha => ?_, run_append.mpr ⟨t, ht, hu⟩,
    down_of_closing (hclosing hs' hlabels' hu) hrecv hended'⟩
  exact (List.mem_append.mp ha).elim (hlabels a) (hlabels' a)

/-! ### Closing a session -/

/-- **Closing a session** ends everything exactly if both loops are ready. -/
theorem shutdown_iff {isClient : Bool} {labels : List Label}
    (hrun : run (step cfg) (init cfg isClient) labels = some s) (hidle : s.opening = .idle) :
    ShutsDown cfg s ↔ Ready cfg s := by
  constructor
  · intro hdown
    obtain ⟨labels', u, hlabels', hu, hdown⟩ := hdown [] (close s) nofun rfl
    have hentries : Entries s := run_invariant' entries_step (entries_init cfg isClient) hrun
    have hentries' : Entries u :=
      run_invariant' entries_step (show Entries (close s) from hentries) hu
    have hready : Ready cfg u := ready_of_down hentries' hdown
    constructor
    · by_contra hnot
      have hnot' : ¬ RecvReady (close s) := hnot
      exact run_invariant_forall not_recvReady_step hnot' hlabels' hu hready.recv
    · by_contra hnot
      have hnot' : ¬ WriteReady cfg (close s) := hnot
      exact run_invariant_forall not_writeReady_step hnot' hlabels' hu hready.write
  · intro hready labels t hlabels ht
    exact leadsTo_down (run_invariant_forall closing_step (closing_close hidle hready) hlabels ht)

def openOne : List Label := [.openStream, .openLock, .openSend, .write]

theorem shuts_down_early :
    ∃ s, run (step {}) (init {} true) openOne = some s ∧ s.opening = .idle ∧ ShutsDown {} s := by
  have hrun : ∃ s, run (step {}) (init {} true) openOne = some s ∧ s.opening = .idle ∧
      Ready {} s := ⟨_, rfl, rfl, trivial, fun _ => .inl (by decide)⟩
  obtain ⟨s, hs, hidle, hready⟩ := hrun
  exact ⟨s, hs, hidle, (shutdown_iff hs hidle).mpr hready⟩

def atRest : List Label := openOne ++ [.write, .written true, .write, .recv, .recv]

lemma header_step (hs : s.recv = .header) (ha : silent a = true) (h : step cfg s a = some t) :
    t.recv = .header := by
  cases hreceives : Label.receives a with
  | false => exact (keeps_step hreceives h).recv.trans hs
  | true =>
    cases a with
    | recv => simp [step, recvStep, hs] at h
    | header | payload => cases ha
    | _ => cases hreceives

lemma run_atRest : ∃ s st, run (step {}) (init {} true) atRest = some s ∧ s.opening = .idle ∧
      s.streams[0]? = some st ∧ st.held = true ∧ s.recv = .header ∧ st.reader.handle = { id := 1 } ∧
      s.connected 0 st = true := by
  refine ⟨_, _, rfl, rfl, rfl, ?_, rfl, rfl, ?_⟩ <;> decide

/-- **Nothing ends** while the transport is silent and the receive loop is in its read. -/
theorem close_ends_nothing :
    ∃ s st, run (step {}) (init {} true) atRest = some s ∧ s.opening = .idle ∧
      s.streams[0]? = some st ∧ st.held = true ∧
      (∀ n, (st.reader.handle.read ((close s).connected 0 st) n).1 = none) ∧
      (∀ labels t, (∀ a ∈ labels, silent a = true) → run (step {}) (close s) labels = some t →
        t.recv = .header) ∧ ¬ ShutsDown {} s := by
  obtain ⟨s, st, hrun, hidle, hst, hheld, hrecv, hhandle, hconnected⟩ := run_atRest
  have hrecv' : (close s).recv = .header := hrecv
  have hconnected' : (close s).connected 0 st = true := hconnected
  refine ⟨s, st, hrun, hidle, hst, hheld, fun n => ?_, fun labels t hlabels ht => ?_,
    fun hdown => ?_⟩
  · rw [hconnected', hhandle]
    rfl
  · exact run_invariant_forall header_step hrecv' hlabels ht
  · obtain ⟨labels, u, hlabels, hu, hend⟩ := hdown [] (close s) nofun rfl
    have hheader := run_invariant_forall header_step hrecv'
      (fun a ha => silent_of_background (hlabels a ha)) hu
    rw [hend.recv] at hheader
    cases hheader

end Tokilake.Smux.Shutdown
