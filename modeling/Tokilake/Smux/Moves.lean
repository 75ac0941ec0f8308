import Tokilake.Smux.Flow

/-! # What the steps of a session change

The steps of `Flow`, sorted by what they change.

* `acts_step`, `keeps_step`, `entries_step`: for each label. -/

namespace Tokilake.Smux.Flow

open Lib.Run Lib.Calls Smux.Wire List Option
open Smux.Session (WriteRequest)
open Smux.Handles (Handle)
open Smux.Readers (Config Reader)

variable {cfg : Config} {s t : State} {a : Label}

/-! ### The receive loop -/

inductive Loops (cfg : Config) (s : State) : State → Prop
  | leave (h : s.recv = .top ∨ s.recv = .check) (hclosed : s.closed = true) :
      Loops cfg s { s with recv := .cleanup }
  | test (h : s.recv = .top) (hopen : s.closed = false) (hv : cfg.version = 2) :
      Loops cfg s { s with recv := .tokens }
  | skip (h : s.recv = .top) (hopen : s.closed = false) (hv : cfg.version ≠ 2) :
      Loops cfg s { s with recv := .check }
  | park (h : s.recv = .tokens) (hempty : s.bucket ≤ 0) (hopen : s.closed = false) :
      Loops cfg s { s with recv := .parked }
  | pass (h : s.recv = .tokens) (hpass : 0 < s.bucket ∨ s.closed = true) :
      Loops cfg s { s with recv := .check }
  | wake (h : s.recv = .parked) (hpermit : s.bucketPermit = true) :
      Loops cfg s { s with bucketPermit := false, recv := .tokens }
  | await (h : s.recv = .check) (hopen : s.closed = false) : Loops cfg s { s with recv := .header }
  | refused {k : ℕ} {id : UInt32} {data : Bytes} {st : Stream} (h : s.recv = .deliver k id data)
      (hst : s.streams[k]? = some st) (hdropped : st.dropped = true) :
      Loops cfg s { s.unregister id with recv := .top }
  | delivered {k : ℕ} {id : UInt32} {data : Bytes} {st : Stream} (h : s.recv = .deliver k id data)
      (hst : s.streams[k]? = some st) (hdropped : st.dropped = false)
      (hroom : st.queue.length < streamCapacity) :
      Loops cfg s { s.modify k (Stream.enqueue data) with recv := .top }
  | queued {k : ℕ} (h : s.recv = .accept k) (hroom : s.backlog.length < acceptBacklog) :
      Loops cfg s { s with backlog := s.backlog ++ [k], recv := .top }
  | clear (h : s.recv = .cleanup) :
      Loops cfg s { s with table := fun _ => none, closed := true, recv := .ended }

lemma Loops.of_recvStep (h : recvStep cfg s = some t) : Loops cfg s t := by
  unfold recvStep at h
  split at h
  · rename_i hrecv
    cases h
    by_cases hclosed : s.closed = true
    · rw [if_pos hclosed]
      exact .leave (.inl hrecv) hclosed
    rw [if_neg hclosed]
    split_ifs with hv
    · exact .test hrecv (by simpa using hclosed) hv
    · exact .skip hrecv (by simpa using hclosed) hv
  · rename_i hrecv
    cases h
    split_ifs with hpark
    · exact .park hrecv hpark.1 hpark.2
    · rw [not_and_or, not_le, Bool.not_eq_false] at hpark
      exact .pass hrecv hpark
  · rename_i hrecv
    split_ifs at h with hpermit
    cases h
    exact .wake hrecv hpermit
  · rename_i hrecv
    cases h
    split_ifs with hclosed
    · exact .leave (.inr hrecv) hclosed
    · exact .await hrecv (by simpa using hclosed)
  · rename_i k id data hrecv
    split at h
    · cases h
    rename_i st hst
    split_ifs at h with hdropped hroom
    · cases h
      exact .refused hrecv hst hdropped
    · cases h
      exact .delivered hrecv hst (by simpa using hdropped) hroom
  · rename_i k hrecv
    split_ifs at h with hroom
    cases h
    exact .queued hrecv hroom
  · rename_i hrecv
    cases h
    exact .clear hrecv
  all_goals cases h

lemma Loops.recvStep (h : Loops cfg s t) : recvStep cfg s = some t := by
  cases h with
  | leave h hclosed => rcases h with h | h <;> simp [Flow.recvStep, h, hclosed]
  | pass h hpass =>
    have hnot : ¬ (s.bucket ≤ 0 ∧ s.closed = false) := by
      rw [not_and_or, not_le, Bool.not_eq_false]
      exact hpass
    simp only [Flow.recvStep, h, if_neg hnot]
  | _ => simp [Flow.recvStep, *]

lemma recvStep_iff : recvStep cfg s = some t ↔ Loops cfg s t := ⟨.of_recvStep, Loops.recvStep⟩

/-! ### Frames -/

inductive Dispatched (cfg : Config) (s : State) (f : Frame) : State → Prop
  | syn (h : f.cmd = cmdSyn) :
      Dispatched cfg s f { s.register f.streamId false with recv := .accept s.streams.length }
  | fin (h : f.cmd = cmdFin) : Dispatched cfg s f { s.finish f.streamId with recv := .top }
  | push {k : ℕ} (h : f.cmd = cmdPsh) (hk : s.table f.streamId = some k) :
      Dispatched cfg s f { s with recv := .deliver k f.streamId f.data }
  | invalid (h : f.cmd = cmdUpd) (hbad : cfg.version ≠ 2 ∨ f.data.length ≠ 8) :
      Dispatched cfg s f { s with recv := .cleanup }
  | update {k : ℕ} (h : f.cmd = cmdUpd) (hv : cfg.version = 2) (hlength : f.data.length = 8)
      (hk : s.table f.streamId = some k) : Dispatched cfg s f
        { s.modify k (Stream.update (updConsumed f.data) (updWindow f.data)) with recv := .top }
  | ignored (h : f.cmd ≠ cmdSyn) (h' : f.cmd ≠ cmdFin)
      (hk : f.cmd = cmdPsh ∨ f.cmd = cmdUpd → s.table f.streamId = none)
      (hupd : f.cmd = cmdUpd → cfg.version = 2 ∧ f.data.length = 8) :
      Dispatched cfg s f { s with recv := .top }

lemma dispatched (cfg : Config) (s : State) (f : Frame) :
    Dispatched cfg s f (dispatch cfg s f) := by
  unfold dispatch
  split_ifs with hsyn hfin hpsh hupd hbad
  · exact .syn hsyn
  · exact .fin hfin
  · cases hk : s.table f.streamId with
    | none => exact .ignored hsyn hfin (fun _ => hk) fun hupd => by rw [hpsh] at hupd; cases hupd
    | some k => exact .push hpsh hk
  · exact .invalid hupd hbad
  · rw [not_or, not_not, not_not] at hbad
    cases hk : s.table f.streamId with
    | none => exact .ignored hsyn hfin (fun _ => hk) fun _ => hbad
    | some k => exact .update hupd hbad.1 hbad.2 hk
  · refine .ignored hsyn hfin ?_ fun h => absurd h hupd
    rintro (h | h)
    · exact absurd h hpsh
    · exact absurd h hupd

def frameOf (h : FrameHeader) (data : Bytes) : Frame := ⟨h.version, h.cmd, h.streamId, data⟩

lemma onHeader_cases {x : Option FrameHeader} (h : onHeader cfg s x = some t) : s.recv = .header ∧
      ((∀ header, x = some header → header.version ≠ cfg.version) ∧
        t = { s with recv := .cleanup } ∨
        ∃ header, x = some header ∧ header.version = cfg.version ∧ header.length ≤ maxPayloadSize ∧
          (header.length = 0 ∧ Dispatched cfg s (frameOf header []) t ∨
            0 < header.length ∧ t = { s with recv := .payload header })) := by
  unfold onHeader at h
  split at h
  · rename_i hrecv
    cases h
    exact ⟨hrecv, .inl ⟨nofun, rfl⟩⟩
  · rename_i header hrecv
    split_ifs at h with hlength hversion hempty
    · cases h
      exact ⟨hrecv, .inl ⟨by rintro _ ⟨⟩; exact hversion, rfl⟩⟩
    · cases h
      exact ⟨hrecv, .inr ⟨header, rfl, not_not.mp hversion, by omega,
        .inl ⟨hempty, dispatched cfg s (frameOf header [])⟩⟩⟩
    · cases h
      exact ⟨hrecv, .inr ⟨header, rfl, not_not.mp hversion, by omega, .inr ⟨by omega, rfl⟩⟩⟩
  · cases h

lemma onPayload_cases {x : Option Bytes} (h : onPayload cfg s x = some t) :
    ∃ header, s.recv = .payload header ∧ (x = none ∧ t = { s with recv := .cleanup } ∨
        ∃ data, x = some data ∧ data.length = header.length ∧
          Dispatched cfg (s.takeTokens cfg data.length) (frameOf header data) t) := by
  unfold onPayload at h
  split at h
  · rename_i header hrecv
    cases h
    exact ⟨header, hrecv, .inl ⟨rfl, rfl⟩⟩
  · rename_i header data hrecv
    split_ifs at h with hlength
    cases h
    exact ⟨header, hrecv, .inr ⟨data, rfl, not_not.mp hlength,
      dispatched cfg (s.takeTokens cfg data.length) (frameOf header data)⟩⟩
  · cases h

lemma takeTokens_bucket (cfg : Config) (s : State) (n : ℕ) :
    ∃ bucket, s.takeTokens cfg n = { s with bucket } := by
  unfold State.takeTokens
  split_ifs
  · exact ⟨_, rfl⟩
  · exact ⟨s.bucket, rfl⟩

def Label.receives : Label → Bool
  | .recv | .header _ | .payload _ => true
  | _ => false

lemma receives_cases (ha : Label.receives a = true) (h : step cfg s a = some t) :
    Loops cfg s t ∨ (∃ recv, recv ≠ .parked ∧ t = { s with recv }) ∨
      ∃ bucket f, Dispatched cfg { s with bucket } f t := by
  cases a with
  | recv => exact .inl (recvStep_iff.mp h)
  | header x =>
    obtain ⟨-, ⟨-, rfl⟩ | ⟨header, -, -, -, ⟨-, hf⟩ | ⟨-, rfl⟩⟩⟩ := onHeader_cases h
    · exact .inr (.inl ⟨.cleanup, nofun, rfl⟩)
    · exact .inr (.inr ⟨s.bucket, _, hf⟩)
    · exact .inr (.inl ⟨.payload header, nofun, rfl⟩)
  | payload x =>
    obtain ⟨header, -, ⟨-, rfl⟩ | ⟨data, -, -, hf⟩⟩ := onPayload_cases h
    · exact .inr (.inl ⟨.cleanup, nofun, rfl⟩)
    · obtain ⟨bucket, heq⟩ := takeTokens_bucket cfg s data.length
      exact .inr (.inr ⟨bucket, _, heq ▸ hf⟩)
  | _ => cases ha

structure Apart (s t : State) : Prop where
  writeLoop : t.writeLoop = s.writeLoop
  ctrl : t.ctrl = s.ctrl
  data : t.data = s.data
  spawned : t.spawned = s.spawned
  opening : t.opening = s.opening

lemma apart_receives (ha : Label.receives a = true) (h : step cfg s a = some t) : Apart s t := by
  rcases receives_cases ha h with h | ⟨recv, -, rfl⟩ | ⟨bucket, f, h⟩
  · cases h <;> exact ⟨rfl, rfl, rfl, rfl, rfl⟩
  · exact ⟨rfl, rfl, rfl, rfl, rfl⟩
  · cases h with
    | fin =>
      unfold State.finish
      split <;> exact ⟨rfl, rfl, rfl, rfl, rfl⟩
    | _ => exact ⟨rfl, rfl, rfl, rfl, rfl⟩

/-! ### Reads -/

def pending (h : Handle) : ℕ := h.readBuf.length + h.queue.flatten.length

/-- A read takes the bytes it returns, and finds the end only outside the table. -/
structure Takes (connected : Bool) (h : Handle) (x : Option Bytes × Handle) : Prop where
  id : x.2.id = h.id
  dropped : x.2.dropped = h.dropped
  finReceived : connected = true → x.2.finReceived = h.finReceived
  queue : x.2.queue.length ≤ h.queue.length
  bytes : pending x.2 + (x.1.getD []).length = pending h

lemma takes_serve (connected : Bool) (h : Handle) (n : ℕ) : Takes connected h (h.serve n) := by
  have hlen := congrArg length (take_append_drop n h.readBuf)
  rw [length_append] at hlen
  refine ⟨rfl, rfl, fun _ => rfl, le_rfl, ?_⟩
  simp only [Handle.serve, pending, getD_some]
  omega

lemma takes_receive {h : Handle} (hbuf : h.readBuf = []) (connected : Bool) (n : ℕ) :
    ∀ queue : List Bytes, Takes connected { h with queue } (h.receive connected n queue)
  | [] => by
    rw [Handle.receive]
    cases connected <;> exact ⟨rfl, rfl, by simp, Nat.zero_le _, by simp [pending]⟩
  | data :: queue => by
    rw [Handle.receive]
    split_ifs with hdata
    · have htakes := takes_receive hbuf connected n queue
      exact ⟨htakes.id, htakes.dropped, htakes.finReceived, htakes.queue.trans (Nat.le_succ _),
        by rw [htakes.bytes]; simp [pending, hdata]⟩
    · have htakes := takes_serve connected { h with readBuf := data, queue } n
      exact ⟨rfl, rfl, fun _ => rfl, Nat.le_succ _, by rw [htakes.bytes]; simp [pending, hbuf]⟩

lemma takes_read (h : Handle) (connected : Bool) (n : ℕ) :
    Takes connected h (h.read connected n) := by
  unfold Handle.read
  split_ifs with hbuf hfin
  · exact takes_serve connected h n
  · exact ⟨rfl, rfl, fun _ => rfl, le_rfl, rfl⟩
  · exact takes_receive (not_ne_iff.mp hbuf) connected n h.queue

lemma takes_poll (h : Handle) (connected : Bool) (n : ℕ) :
    Takes connected h (Readers.pollHandle connected n h) := by
  unfold Readers.pollHandle
  by_cases hbuf : h.readBuf = []
  · rw [if_neg (not_not_intro hbuf)]
    by_cases hfin : h.finReceived = true
    · rw [if_pos hfin]
      exact ⟨rfl, rfl, fun _ => rfl, le_rfl, rfl⟩
    rw [if_neg hfin]
    cases hq : h.queue with
    | nil => cases connected <;> exact ⟨rfl, rfl, by simp, by simp [hq], by simp [pending, hq]⟩
    | cons data queue =>
      have hlen := congrArg length (take_append_drop n data)
      rw [length_append] at hlen
      refine ⟨rfl, rfl, fun _ => rfl, by simp [hq], ?_⟩
      simp only [pending, hq, hbuf, flatten_cons, length_append, length_nil, getD_some]
      omega
  · rw [if_pos hbuf]
    exact takes_serve connected h n

lemma takes_readerAfter (cfg : Config) (connected : Bool) (n : ℕ) (poll : Bool) (r : Reader) :
    ∃ bytes, Takes connected r.handle (bytes, (readerAfter cfg connected n poll r).handle) := by
  cases poll with
  | true =>
    refine ⟨(Readers.pollHandle connected n r.handle).1, ?_⟩
    simp only [readerAfter, if_true, Reader.pollRead, Readers.consume_handle]
    exact takes_poll r.handle connected n
  | false =>
    refine ⟨(r.handle.read connected n).1, ?_⟩
    simp only [readerAfter, Bool.false_eq_true, if_false, Reader.read, Readers.consume_handle]
    exact takes_read r.handle connected n

/-! ### The other steps -/

/-- A read finds the end only outside the table; a writer waits until notified or the session ends.
-/
structure Later (ended connected : Prop) (st st' : Stream) : Prop where
  id : st'.id = st.id
  finSeen : st'.finSeen = st.finSeen
  finReceived : connected → st'.reader.handle.finReceived = st.reader.handle.finReceived
  dropped : st.dropped = true → st'.dropped = true
  queue : st'.queue.length ≤ st.queue.length
  notify : st.sender.windowNotify = false → st'.sender.windowNotify = false
  waits : ∀ data, st.sender.phase = .waiting data → st.sender.windowNotify = false →
    ended ∨ st'.sender.phase = .waiting data

lemma later_of_halves {ended connected : Prop} {st st' : Stream} (hreader : st'.reader = st.reader)
    (hsender : st'.sender = st.sender) (hfin : st'.finSeen = st.finSeen) :
    Later ended connected st st' where
  id := congrArg (·.handle.id) hreader
  finSeen := hfin
  finReceived _ := congrArg (·.handle.finReceived) hreader
  dropped h := (congrArg (·.handle.dropped) hreader).trans h
  queue := (congrArg (·.handle.queue.length) hreader).le
  notify h := (congrArg (·.windowNotify) hsender).trans h
  waits _ h _ := .inr ((congrArg (·.phase) hsender).trans h)

lemma Later.refl (ended connected : Prop) (st : Stream) : Later ended connected st st :=
  later_of_halves rfl rfl rfl

lemma later_sender {connected : Prop} {st : Stream} {sender : Window.State} {b : Window.Label}
    (hb : allows cfg s st b = true) (h : Window.step st.sender b = some sender) :
    Later (s.writeLoop = .ended) connected st { st with sender } := by
  refine ⟨rfl, rfl, fun _ => rfl, fun hd => hd, le_rfl, ?_, fun data hw hn => ?_⟩
  · cases b with
    | storeConsumed | storeWindow | notify => cases hb
    | _ =>
      simp only [Window.step] at h
      split at h <;> (try split at h) <;> cases h <;> simp
  · -- what a waiting writer can do is to wake up or to see that the session has ended
    cases b with
    | storeConsumed | storeWindow | notify => cases hb
    | closed => exact .inl (by simpa [allows] using hb)
    | _ => simp [Window.step, hw, hn] at h

lemma later_read {k : ℕ} {st : Stream} (n : ℕ) (poll : Bool) (ended : Prop) :
    Later ended (s.table st.id = some k) st
      { st with reader := readerAfter cfg (s.connected k st) n poll st.reader } := by
  obtain ⟨bytes, htakes⟩ := takes_readerAfter cfg (s.connected k st) n poll st.reader
  exact {
    id := htakes.id
    finSeen := rfl
    finReceived := fun hc => htakes.finReceived (by simpa using hc)
    dropped := fun hd => htakes.dropped.trans hd
    queue := htakes.queue
    notify := fun hn => hn
    waits := fun _ hw _ => .inr hw }

def State.requests (s : State) : Prop := s.ctrl ≠ [] ∨ s.data ≠ [] ∨ s.spawned ≠ []

/-- What the steps outside the receive loop leave alone, but for the streams. -/
structure Same (s t : State) : Prop where
  recv : t.recv = s.recv
  closed : s.closed = true → t.closed = true
  permit : s.bucketPermit = true → t.bucketPermit = true
  bucket : t.bucket = s.bucket
  backlog : t.backlog = s.backlog
  streams : t.streams = s.streams
  table : t.table = s.table
  opening : t.opening = s.opening ∨ (s.opening = .idle ∧ s.closed = false) ∨
    ∃ k id, s.opening = .sending k id
  ended : s.writeLoop = .ended → t.writeLoop = .ended
  requests : t.writeLoop = .select → s.closed = true →
    s.writeLoop = .select ∧ (s.requests → t.requests)

lemma Same.refl (s : State) : Same s s :=
  ⟨rfl, id, id, rfl, rfl, rfl, rfl, .inl rfl, id, fun h _ => ⟨h, id⟩⟩

lemma same_sendCtrl {req : WriteRequest} (h : s.sendCtrl req = some t) : Same s t := by
  unfold State.sendCtrl at h
  split_ifs at h <;> cases h
  · exact .refl s
  · exact { Same.refl s with requests := fun h _ => ⟨h, fun _ => .inl (by simp)⟩ }

lemma same_sendData (s : State) (st : Stream) (payload : Bytes) :
    Same s (sendData s st payload) := by
  unfold sendData
  split_ifs
  · exact { Same.refl s with requests := fun h _ => ⟨h, fun _ => .inr (.inl (by simp))⟩ }
  · exact { Same.refl s with requests := fun h _ => ⟨h, fun _ => .inl (by simp)⟩ }

lemma same_sendUpdates (s : State) (requests : List WriteRequest) :
    Same s (s.sendUpdates requests) := by
  unfold State.sendUpdates
  split_ifs
  · exact .refl s
  · refine { Same.refl s with requests := fun h _ => ⟨h, ?_⟩ }
    exact Or.imp_left fun hctrl hnil => hctrl (append_eq_nil_iff.mp hnil).1
  · refine { Same.refl s with requests := fun h _ => ⟨h, ?_⟩ }
    exact Or.imp_right (Or.imp_right fun hspawned hnil => hspawned (append_eq_nil_iff.mp hnil).1)

def Label.aside : Label → Bool
  | .write | .written _ | .tick _ | .openStream | .close | .writeV1 _ _ | .sendSpawned => true
  | _ => false

lemma same_step (ha : Label.aside a = true) (h : step cfg s a = some t) : Same s t := by
  cases a with
  | write =>
    simp only [step, writeStep] at h
    split at h
    · rename_i htop
      cases h
      exact ⟨rfl, id, id, rfl, rfl, rfl, rfl, .inl rfl, by simp [htop], by simp +contextual⟩
    · rename_i hselect
      split at h <;> cases h <;>
        exact ⟨rfl, id, id, rfl, rfl, rfl, rfl, .inl rfl,
          by simp [hselect, -WriteRequest.frame], nofun⟩
    all_goals cases h
  | written ok =>
    simp only [step, onWritten] at h
    split at h
    · rename_i hwriting
      split_ifs at h <;> cases h
      · exact ⟨rfl, id, id, rfl, rfl, rfl, rfl, .inl rfl, by simp [hwriting], nofun⟩
      · exact ⟨rfl, by simp +contextual, id, rfl, rfl, rfl, rfl, .inl rfl, fun _ => rfl, nofun⟩
    · cases h
  | tick timedOut =>
    simp only [step, onTick] at h
    split_ifs at h with htick <;> cases h
    · exact ⟨rfl, fun _ => rfl, id, rfl, rfl, rfl, rfl, .inl rfl, fun _ => rfl, nofun⟩
    · exact ⟨rfl, id, id, rfl, rfl, rfl, rfl, .inl rfl, by simp [htick.2.1], nofun⟩
  | openStream =>
    simp only [step, openStream] at h
    split at h
    · rename_i hidle
      split_ifs at h with hclosed <;> cases h
      · exact .refl s
      · rw [not_or, Bool.not_eq_true] at hclosed
        exact { Same.refl s with opening := .inr (.inl ⟨hidle, hclosed.1⟩) }
    · cases h
  | close =>
    simp only [step] at h
    split_ifs at h
    cases h
    exact { Same.refl s with closed := fun _ => rfl, permit := fun _ => rfl }
  | writeV1 k data =>
    simp only [step, writeV1] at h
    split at h
    · cases h
    · split_ifs at h
      cases h
      exact same_sendData _ _ _
  | sendSpawned =>
    simp only [step, sendSpawned, State.sendCtrl] at h
    split at h
    · cases h
    · split_ifs at h with hended <;> cases h
      · exact { Same.refl s with requests := by simp [hended] }
      · exact { Same.refl s with requests := fun h _ => ⟨h, fun _ => .inl (by simp)⟩ }
  | _ => cases ha

/-- Something to one stream that its reader does not notice, a read, a drop, or a new stream. -/
inductive Acts (cfg : Config) (s : State) : Label → State → Prop
  | edit {a : Label} {t : State} {k : ℕ} {f : Stream → Stream} {backlog : List ℕ}
      (ha : ∀ k, a ≠ .drop k) (hreader : ∀ st, (f st).reader = st.reader)
      (hlater : ∀ st, s.streams[k]? = some st →
        Later (s.writeLoop = .ended) (s.table st.id = some k) st (f st))
      (hbacklog : backlog.length ≤ s.backlog.length)
      (h : Same { s.modify k f with backlog } t) : Acts cfg s a t
  | read {k n : ℕ} {poll : Bool} {st : Stream} {reader : Reader} (hst : s.streams[k]? = some st)
      (hheld : st.held = true)
      (hreader : reader = readerAfter cfg (s.connected k st) n poll st.reader) :
      Acts cfg s (.read k n poll) (((s.modify k fun st => { st with reader }).giveTokens
        (reader.returned - st.reader.returned)).sendUpdates
          (reader.updates.drop st.reader.updates.length))
  | drop {k : ℕ} {st : Stream} (hst : s.streams[k]? = some st) (hheld : st.held = true) :
      Acts cfg s (.drop k) (s.modify k Stream.drop)
  | register {id : UInt32} (h : s.opening = .locking id) (hlocks : s.recv.locks = false) :
      Acts cfg s .openLock { s.register id true with opening := .sending s.streams.length id }

lemma acts_of_same (ha : ∀ k, a ≠ .drop k) (h : Same s t) : Acts cfg s a t := by
  have hid := modify_id 0 s.streams
  refine .edit (k := 0) (f := id) ha (fun _ => rfl) (fun st _ => .refl _ _ st) le_rfl ?_
  rw [State.modify, hid]
  exact h

lemma acts_step (ha : Label.receives a = false) (h : step cfg s a = some t) : Acts cfg s a t := by
  cases a with
  | recv | header | payload => cases ha
  | openLock =>
    simp only [step, openLock] at h
    split at h
    · rename_i id hlocking
      split_ifs at h with hlocks
      cases h
      exact .register hlocking (by simpa using hlocks)
    · cases h
  | openSend =>
    simp only [step, openSend] at h
    split at h
    · rename_i k id hsending
      obtain ⟨u, hu, rfl⟩ := map_eq_some_iff.mp h
      have hsame := same_sendCtrl hu
      refine .edit (k := k) (f := Stream.give) nofun (fun _ => rfl)
        (fun st _ => later_of_halves rfl rfl rfl) le_rfl ?_
      exact { hsame with
        streams := congrArg (·.modify k Stream.give) hsame.streams
        opening := .inr (.inr ⟨k, id, hsending⟩) }
    · cases h
  | accept =>
    simp only [step, accept] at h
    split_ifs at h
    split at h <;> cases h
    rename_i k backlog hbacklog
    exact .edit (f := Stream.give) nofun (fun _ => rfl) (fun st _ => later_of_halves rfl rfl rfl)
      (by simp [hbacklog]) (.refl _)
  | read k n poll =>
    simp only [step, readStream] at h
    split at h
    · cases h
    rename_i st hst
    split_ifs at h with hheld
    cases h
    exact .read hst hheld rfl
  | sender k b =>
    simp only [step, senderStep] at h
    split at h
    · cases h
    rename_i st hst
    split_ifs at h with hallows
    obtain ⟨sender, hsender, rfl⟩ := map_eq_some_iff.mp h
    refine .edit (k := k) (f := fun st => { st with sender }) nofun (fun _ => rfl)
      (fun st' hst' => ?_) le_rfl ?_
    · obtain rfl := some.inj (hst.symm.trans hst')
      exact later_sender ((Bool.and_eq_true _ _).mp hallows).2 hsender
    · split
      · exact same_sendData _ _ _
      · exact .refl _
  | closeStream k =>
    simp only [step, closeStream] at h
    split at h
    · cases h
    · split_ifs at h
      exact .edit (f := fun st => { st with finSent := true }) nofun (fun _ => rfl)
        (fun st _ => later_of_halves rfl rfl rfl) le_rfl (same_sendCtrl h)
  | drop k =>
    simp only [step, dropStream] at h
    split at h
    · cases h
    rename_i st hst
    split_ifs at h with hheld
    cases h
    exact .drop hst hheld
  | _ => exact acts_of_same nofun (same_step rfl h)

/-- A step outside the receive loop: it leaves the table alone, or is that of `open`. -/
structure Keeps (s t : State) : Prop where
  recv : t.recv = s.recv
  closed : s.closed = true → t.closed = true
  permit : s.bucketPermit = true → t.bucketPermit = true
  ended : s.writeLoop = .ended → t.writeLoop = .ended
  backlog : t.backlog.length ≤ s.backlog.length
  streams : ∀ (k : ℕ) st, s.streams[k]? = some st →
    ∃ st', t.streams[k]? = some st' ∧ Later (s.writeLoop = .ended) (s.table st.id = some k) st st'
  table : (t.table = s.table ∧ t.streams.length = s.streams.length) ∨
    ∃ id, s.opening = .locking id ∧ t = { s.register id true with
      opening := .sending s.streams.length id }
  opening : s.opening = .idle → s.closed = true → t.opening = .idle
  requests : t.writeLoop = .select → s.closed = true →
    s.writeLoop = .select ∧ (s.requests → t.requests)

lemma keeps_modify {k : ℕ} {f : Stream → Stream} {backlog : List ℕ} {bucket : ℤ}
    {bucketPermit : Bool}
    (hlater : ∀ st, s.streams[k]? = some st →
      Later (s.writeLoop = .ended) (s.table st.id = some k) st (f st))
    (hbacklog : backlog.length ≤ s.backlog.length)
    (hpermit : s.bucketPermit = true → bucketPermit = true)
    (h : Same { s.modify k f with backlog, bucket, bucketPermit } t) : Keeps s t where
  recv := h.recv
  closed := h.closed
  permit hp := h.permit (hpermit hp)
  ended := h.ended
  backlog := h.backlog ▸ hbacklog
  streams j st hst := by
    rw [h.streams, State.modify, getElem?_modify, hst]
    by_cases hj : k = j
    · subst hj
      exact ⟨f st, by simp, hlater st hst⟩
    · exact ⟨st, by simp [hj], .refl _ _ st⟩
  table := .inl ⟨h.table, by rw [h.streams]; exact length_modify _ _ _⟩
  opening hidle hclosed := by
    rcases h.opening with heq | ⟨-, hopen⟩ | ⟨k, id, hsending⟩
    · exact heq.trans hidle
    · exact absurd (hopen.symm.trans hclosed) Bool.false_ne_true
    · cases hidle.symm.trans hsending
  requests := h.requests

lemma giveTokens_eq (s : State) (n : ℕ) : ∃ bucket bucketPermit,
    s.giveTokens n = { s with bucket, bucketPermit } ∧
      (s.bucketPermit = true → bucketPermit = true) := by
  unfold State.giveTokens
  split_ifs
  · exact ⟨s.bucket, s.bucketPermit, rfl, id⟩
  · exact ⟨_, _, rfl, fun hp => by simp [hp]⟩

lemma keeps_step (ha : Label.receives a = false) (h : step cfg s a = some t) : Keeps s t := by
  cases acts_step ha h with
  | edit _ _ hlater hbacklog h => exact keeps_modify hlater hbacklog id h
  | @read k n poll st reader hst _ hreader =>
    obtain ⟨bucket, bucketPermit, heq, hpermit⟩ :=
      giveTokens_eq (s.modify k fun st => { st with reader })
      (reader.returned - st.reader.returned)
    rw [heq]
    refine keeps_modify (fun st' hst' => ?_) le_rfl hpermit (same_sendUpdates _ _)
    obtain rfl := some.inj (hst.symm.trans hst')
    rw [hreader]
    exact later_read n poll _
  | drop =>
    refine keeps_modify (fun st _ => ?_) le_rfl id (.refl _)
    exact ⟨rfl, rfl, fun _ => rfl, fun _ => rfl, le_rfl, fun hn => hn, fun _ hw _ => .inr hw⟩
  | register hlocking =>
    refine ⟨rfl, id, id, id, le_rfl, fun k st hst => ⟨st, ?_, .refl _ _ st⟩,
      .inr ⟨_, hlocking, rfl⟩,
      fun hidle => ?_, fun h _ => ⟨h, id⟩⟩
    · exact List.getElem?_append_left (List.getElem?_eq_some_iff.mp hst).1 ▸ hst
    · cases hidle.symm.trans hlocking

/-! ### The table -/

structure Entry (id : UInt32) (st : Stream) : Prop where
  id : st.id = id
  finSeen : st.finSeen = false
  finReceived : st.reader.handle.finReceived = false

def Entries (s : State) : Prop :=
  ∀ id k, s.table id = some k → ∃ st, s.streams[k]? = some st ∧ Entry id st

lemma entries_init (cfg : Config) (isClient : Bool) : Entries (init cfg isClient) := nofun

lemma Entries.modify (h : Entries s) (k : ℕ) {f : Stream → Stream}
    (hf : ∀ id st, Entry id st → Entry id (f st)) : Entries (s.modify k f) := by
  intro id j hj
  obtain ⟨st, hst, hentry⟩ := h id j hj
  rw [State.modify, getElem?_modify, hst]
  by_cases hkj : k = j
  · exact ⟨f st, by simp [hkj], hf id st hentry⟩
  · exact ⟨st, by simp [hkj], hentry⟩

lemma Entries.unregister (h : Entries s) (id : UInt32) : Entries (s.unregister id) := by
  intro id' k hk
  by_cases hid : id' = id
  · simp [State.unregister, hid] at hk
  · exact h id' k (by simpa [State.unregister, hid] using hk)

lemma Entries.register (h : Entries s) (id : UInt32) (opened : Bool) :
    Entries (s.register id opened) := by
  intro id' k hk
  by_cases hid : id' = id
  · subst hid
    obtain rfl : s.streams.length = k := by simpa [State.register] using hk
    exact ⟨_, getElem?_concat_length, rfl, rfl, rfl⟩
  · obtain ⟨st, hst, hentry⟩ := h id' k (by simpa [State.register, hid] using hk)
    refine ⟨st, ?_, hentry⟩
    exact List.getElem?_append_left (List.getElem?_eq_some_iff.mp hst).1 ▸ hst

lemma Entries.finish (h : Entries s) (id : UInt32) : Entries (s.finish id) := by
  unfold State.finish
  split
  · exact h
  rename_i k hk
  intro id' j hj
  have hid : id' ≠ id := by
    rintro rfl
    simp [State.unregister] at hj
  have hj' : s.table id' = some j := by simpa [State.unregister, State.modify, hid] using hj
  obtain ⟨st, hst, hentry⟩ := h id' j hj'
  have hkj : k ≠ j := by
    rintro rfl
    obtain ⟨st', hst', hentry'⟩ := h id k hk
    obtain rfl := some.inj (hst.symm.trans hst')
    exact hid (hentry.id.symm.trans hentry'.id)
  exact ⟨st, by simp [State.unregister, State.modify, hkj, hst], hentry⟩

lemma Entries.dispatched {f : Frame} (h : Entries s) (hf : Dispatched cfg s f t) : Entries t := by
  cases hf with
  | syn => exact h.register f.streamId false
  | fin => exact h.finish f.streamId
  | update => exact h.modify _ fun id st he => ⟨he.id, he.finSeen, he.finReceived⟩
  | push | invalid | ignored => exact h

lemma entries_step (h : Entries s) (ht : step cfg s a = some t) : Entries t := by
  cases ha : Label.receives a with
  | false =>
    have hkeeps := keeps_step ha ht
    rcases hkeeps.table with ⟨htable, -⟩ | ⟨id, -, rfl⟩
    · intro id k hk
      rw [htable] at hk
      obtain ⟨st, hst, hentry⟩ := h id k hk
      obtain ⟨st', hst', hlater⟩ := hkeeps.streams k st hst
      exact ⟨st', hst', hlater.id.trans hentry.id, hlater.finSeen.trans hentry.finSeen,
        (hlater.finReceived (hentry.id ▸ hk)).trans hentry.finReceived⟩
    · exact h.register id true
  | true =>
    rcases receives_cases ha ht with hl | ⟨recv, -, rfl⟩ | ⟨bucket, f, hf⟩
    · cases hl with
      | refused => exact h.unregister _
      | delivered => exact h.modify _ fun id st he => ⟨he.id, he.finSeen, he.finReceived⟩
      | clear => exact nofun
      | _ => exact h
    · exact h
    · exact Entries.dispatched (s := { s with bucket }) h hf

end Tokilake.Smux.Flow
