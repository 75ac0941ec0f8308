import Tokilake.Smux.Moves

/-! # The token bucket of a session

The receive loop takes a token for every byte of a payload, and only reads give tokens back.

* `bucket_iff`: when no token is lost. -/

namespace Tokilake.Smux.Bucket

open Lib.Run Lib.Calls Smux.Wire Smux.Flow List
open Smux.Handles (Handle)
open Smux.Readers (Config Reader)

/-! ### What waits and what is lost -/

def live (st : Stream) : ℕ := if st.dropped then 0 else st.unread

def inHand (streams : List Stream) : Recv → ℕ
  | .deliver k _ data =>
    match streams[k]? with
    | some st => if st.dropped then 0 else data.length
    | none => 0
  | _ => 0

def waiting (s : State) : ℕ := total live s.streams + inHand s.streams s.recv

def arrives (s : State) (cmd : UInt8) (streamId : UInt32) : Bool :=
  cmd = cmdPsh ∧ (((s.table streamId).bind (s.streams[·]?)).any fun st => !st.dropped)

def handed (k : ℕ) : Recv → ℕ
  | .deliver j _ data => if j = k then data.length else 0
  | _ => 0

def lost (s : State) : Label → ℕ
  | .payload (some data) =>
    match s.recv with
    | .payload h =>
      if data.length = h.length ∧ arrives s h.cmd h.streamId = false then data.length else 0
    | _ => 0
  | .drop k =>
    match s.streams[k]? with
    | some st => if st.held then st.unread + handed k s.recv else 0
    | none => 0
  | _ => 0

structure Sound (cfg : Config) (s : State) : Prop where
  bucket : s.bucket = cfg.maxReceiveBuffer - waiting s
  full : waiting s = 0 → 0 < s.bucket

def v2 (cfg : Config) : Config := { cfg with version := 2 }

/-! ### Reads give back what they return -/

variable {cfg : Config} {s t : State} {a : Label} {f : Frame}

lemma returned_consume {connected : Bool} (hv : cfg.version = 2) {r : Reader}
    {x : Option Bytes × Handle} (hx : Takes connected r.handle x) :
    pending (r.consume cfg x).2.handle + ((r.consume cfg x).2.returned - r.returned) =
        pending r.handle ∧ r.returned ≤ (r.consume cfg x).2.returned ∧
      (r.consume cfg x).2.handle.dropped = r.handle.dropped := by
  obtain ⟨bytes, h⟩ := x
  have hbytes := hx.bytes
  cases bytes with
  | none => exact ⟨by simpa [Reader.consume] using hbytes, le_rfl, hx.dropped⟩
  | some bytes =>
    have hreturned : (r.consume cfg (some bytes, h)).2.returned = r.returned + bytes.length := by
      simp only [Reader.consume, Reader.consumeTokens]
      by_cases hn : bytes.length = 0
      · rw [if_pos (.inr hn), hn]
        rfl
      · rw [if_neg (by simp [hv, hn])]
        split_ifs <;> rfl
    rw [Readers.consume_handle, hreturned, Nat.add_sub_cancel_left]
    exact ⟨hbytes, Nat.le_add_right _ _, hx.dropped⟩

/-! ### What waits -/

lemma inHand_of_locks {r : Recv} (h : r.locks = false) (streams : List Stream) :
    inHand streams r = 0 := by
  cases r <;> first | rfl | cases h

lemma inHand_modify {streams : List Stream} {k : ℕ} {f : Stream → Stream}
    (hf : ∀ st, streams[k]? = some st → (f st).dropped = st.dropped) (r : Recv) :
    inHand (streams.modify k f) r = inHand streams r := by
  cases r with
  | deliver j id data =>
    rw [inHand, inHand, getElem?_modify]
    by_cases hj : k = j
    · subst hj
      cases hst : streams[k]? with
      | none => rfl
      | some st => simp [hf st hst]
    · cases streams[j]? <;> simp [hj]
  | _ => rfl

lemma waiting_modify (s : State) (k : ℕ) (f : Stream → Stream) : waiting (s.modify k f) =
    total live (s.streams.modify k f) + inHand (s.streams.modify k f) s.recv := rfl

lemma waiting_congr (hstreams : t.streams = s.streams) (hrecv : t.recv = s.recv) :
    waiting t = waiting s := by
  rw [waiting, waiting, hstreams, hrecv]

lemma not_dropped_of_held {st : Stream} (h : st.held = true) : st.dropped = false := by
  simp only [Stream.held, Bool.and_eq_true, Bool.not_eq_true'] at h
  exact h.2

/-! ### The receive loop -/

def passed : Recv → Bool
  | .check | .header | .payload _ => true
  | _ => false

lemma waiting_register (s : State) (id : UInt32) (opened : Bool) (k : ℕ) :
    waiting { s.register id opened with recv := .accept k } = total live s.streams := by
  simp only [waiting, State.register, total_append, total, inHand]
  rfl

lemma total_finish (s : State) (id : UInt32) :
    total live (s.finish id).streams = total live s.streams := by
  unfold State.finish
  split
  · rfl
  · exact total_modify_eq (g := Stream.finish) (fun _ => rfl) _ _

lemma waiting_dispatched (h : Dispatched cfg s f t) :
    waiting t = total live s.streams + if arrives s f.cmd f.streamId then f.data.length else 0 := by
  have hother (hnot : f.cmd ≠ cmdPsh) : arrives s f.cmd f.streamId = false := by
    simp [arrives, hnot]
  cases h with
  | syn h =>
    rw [hother (by rw [h]; decide)]
    exact waiting_register s _ _ _
  | fin h =>
    rw [hother (by rw [h]; decide)]
    exact total_finish s _
  | push h hk =>
    rename_i k
    cases hst : s.streams[k]? with
    | none => simp [waiting, inHand, arrives, hk, hst]
    | some st =>
      cases hdropped : st.dropped <;> simp [waiting, inHand, arrives, h, hk, hst, hdropped]
  | invalid h =>
    rw [hother (by rw [h]; decide)]
    rfl
  | update h =>
    rw [hother (by rw [h]; decide)]
    exact total_modify_eq (g := Stream.update _ _) (fun _ => rfl) _ _
  | ignored _ _ hk =>
    have hnone : arrives s f.cmd f.streamId = false := by
      by_cases hpsh : f.cmd = cmdPsh
      · simp [arrives, hk (.inl hpsh)]
      · exact hother hpsh
    rw [hnone]
    rfl

lemma dispatched_frame (h : Dispatched cfg s f t) : t.bucket = s.bucket ∧
    passed t.recv = false := by
  cases h with
  | fin =>
    unfold State.finish
    split <;> exact ⟨rfl, rfl⟩
  | _ => exact ⟨rfl, rfl⟩

lemma waiting_enqueue {k : ℕ} {id : UInt32} {data : Bytes} {st : Stream}
    (hrecv : s.recv = .deliver k id data) (hst : s.streams[k]? = some st)
    (hdropped : st.dropped = false) :
    waiting { s.modify k (Stream.enqueue data) with recv := .top } = waiting s := by
  have hsum := total_modify live hst (Stream.enqueue data)
  have hlive : live (Stream.enqueue data st) = live st + data.length := by
    have hd : (Stream.enqueue data st).dropped = false := hdropped
    have hq : (Stream.enqueue data st).queue = st.queue ++ [data] := rfl
    have hb : (Stream.enqueue data st).reader.handle.readBuf = st.reader.handle.readBuf := rfl
    rw [live, live, hd, hdropped]
    simp only [Stream.unread, hq, hb, flatten_append, length_append, flatten_cons,
      flatten_nil, append_nil, Bool.false_eq_true, if_false]
    omega
  have hhand : inHand s.streams s.recv = data.length := by simp [inHand, hrecv, hst, hdropped]
  have hafter : waiting { s.modify k (Stream.enqueue data) with recv := .top } =
      total live (s.streams.modify k (Stream.enqueue data)) := rfl
  rw [hafter, waiting, hhand]
  omega

lemma waiting_recv {r : Recv} (hrecv : s.recv = r) (hr : r.locks = false)
    (ht : t.recv.locks = false) (hstreams : t.streams = s.streams) : waiting t = waiting s := by
  have hs := hrecv ▸ hr
  rw [waiting, waiting, hstreams, inHand_of_locks ht, inHand_of_locks hs]

lemma recv_step (h : recvStep cfg s = some t) :
    t.bucket = s.bucket ∧ waiting t = waiting s ∧ (s.closed = true → t.closed = true) ∧
      (t.recv = .check → cfg.version = 2 → 0 < t.bucket ∨ t.closed = true) ∧
      (t.recv = .header → s.recv = .check ∧ t.closed = false) ∧ ∀ h, t.recv ≠ .payload h := by
  cases recvStep_iff.mp h with
  | leave hrecv =>
    refine ⟨rfl, ?_, id, by simp, by simp, by simp⟩
    rcases hrecv with hrecv | hrecv <;> exact waiting_recv hrecv rfl rfl rfl
  | test hrecv | park hrecv | wake hrecv | queued hrecv =>
    exact ⟨rfl, waiting_recv hrecv rfl rfl rfl, id, by simp, by simp, by simp⟩
  | skip hrecv _ hv =>
    exact ⟨rfl, waiting_recv hrecv rfl rfl rfl, id, fun _ h => absurd h hv, by simp, by simp⟩
  | pass hrecv hpass =>
    exact ⟨rfl, waiting_recv hrecv rfl rfl rfl, id, fun _ _ => hpass, by simp, by simp⟩
  | await hrecv hopen =>
    exact ⟨rfl, waiting_recv hrecv rfl rfl rfl, id, by simp, fun _ => ⟨hrecv, hopen⟩, by simp⟩
  | refused hrecv hst hdropped =>
    refine ⟨rfl, ?_, fun hc => hc, by simp, by simp, by simp⟩
    simp [waiting, hrecv, inHand, hst, hdropped, State.unregister]
  | delivered hrecv hst hdropped =>
    exact ⟨rfl, waiting_enqueue hrecv hst hdropped, fun hc => hc, by simp, by simp, by simp⟩
  | clear hrecv =>
    exact ⟨rfl, waiting_recv hrecv rfl rfl rfl, fun _ => rfl, by simp, by simp, by simp⟩

lemma header_step {x : Option FrameHeader} (h : onHeader cfg s x = some t) :
    t.bucket = s.bucket ∧ waiting t = waiting s ∧
      (passed t.recv = false ∨ ∃ h, t.recv = .payload h ∧ h.length ≤ maxPayloadSize) ∧
      s.recv = .header := by
  obtain ⟨hrecv, ⟨-, rfl⟩ | ⟨header, -, -, hlength, ⟨-, hf⟩ | ⟨-, rfl⟩⟩⟩ := onHeader_cases h
  · exact ⟨rfl, waiting_recv hrecv rfl rfl rfl, .inl rfl, hrecv⟩
  · obtain ⟨hbucket, hpassed⟩ := dispatched_frame hf
    refine ⟨hbucket, ?_, .inl hpassed, hrecv⟩
    rw [waiting_dispatched hf, waiting, hrecv]
    cases arrives s (frameOf header []).cmd (frameOf header []).streamId <;> rfl
  · exact ⟨rfl, waiting_recv hrecv rfl rfl rfl, .inr ⟨header, rfl, hlength⟩, hrecv⟩

/-- No arithmetic on the bucket overflows. -/
structure Inv (s : State) : Prop where
  passed : s.recv = .header ∨ (∃ h, s.recv = .payload h) → 0 < s.bucket
  check : s.recv = .check → 0 < s.bucket ∨ s.closed = true
  length : ∀ h, s.recv = .payload h → h.length ≤ maxPayloadSize
  low : -2 ^ 31 ≤ s.bucket
  high : s.bucket + waiting s < 2 ^ 31

lemma Inv.of_not_passed (h : Bucket.passed s.recv = false) (hlow : -2 ^ 31 ≤ s.bucket)
    (hhigh : s.bucket + waiting s < 2 ^ 31) : Inv s := by
  refine ⟨?_, fun hcheck => ?_, fun x hx => ?_, hlow, hhigh⟩
  · rintro (hheader | ⟨x, hx⟩)
    · rw [hheader] at h
      cases h
    · rw [hx] at h
      cases h
  · rw [hcheck] at h
    cases h
  · rw [hx] at h
    cases h

lemma wrap_eq_self {n : ℤ} (hlow : -2 ^ 31 ≤ n) (hhigh : n < 2 ^ 31) : Window.wrap n = n := by
  rw [Window.wrap_eq]
  split_ifs <;> omega

lemma wrap_range (n : ℤ) : -2 ^ 31 ≤ Window.wrap n ∧ Window.wrap n < 2 ^ 31 := by
  rw [Window.wrap_eq]
  split_ifs <;> omega

lemma inv_init (cfg : Config) (isClient : Bool) : Inv (init cfg isClient) := by
  have hrange := wrap_range cfg.maxReceiveBuffer
  have hbucket : (init cfg isClient).bucket = Window.wrap cfg.maxReceiveBuffer := by rw [init]
  have hwaiting : waiting (init cfg isClient) = 0 := rfl
  refine ⟨?_, nofun, nofun, ?_, ?_⟩
  · intro hrecv
    simp [init] at hrecv
  · rw [hbucket]
    exact hrange.1
  · rw [hbucket, hwaiting]
    omega

lemma takeTokens_eq (hv : cfg.version = 2) (hs : Inv s) {header : FrameHeader} {n : ℕ}
    (hrecv : s.recv = .payload header) (hn : n = header.length) :
    s.takeTokens cfg n = { s with bucket := s.bucket - n } := by
  have hpos := hs.passed (.inr ⟨header, hrecv⟩)
  have hsize := hs.length header hrecv
  have hhigh := hs.high
  unfold maxPayloadSize at hsize
  rw [State.takeTokens, if_pos hv, wrap_eq_self (by omega) (by omega)]

lemma payload_step (hv : cfg.version = 2) (hs : Inv s) {x : Option Bytes}
    (h : onPayload cfg s x = some t) : passed t.recv = false ∧ -2 ^ 31 ≤ t.bucket ∧
      t.bucket + waiting t + lost s (.payload x) = s.bucket + waiting s := by
  obtain ⟨header, hrecv, ⟨rfl, rfl⟩ | ⟨data, rfl, hlength, hf⟩⟩ := onPayload_cases h
  · refine ⟨rfl, hs.low, ?_⟩
    rw [waiting_recv (t := { s with recv := .cleanup }) hrecv rfl rfl rfl]
    exact Int.add_zero _
  · have hhand : waiting s = total live s.streams := by simp [waiting, hrecv, inHand]
    have hpos := hs.passed (.inr ⟨header, hrecv⟩)
    have hsize := hs.length header hrecv
    unfold maxPayloadSize at hsize
    rw [takeTokens_eq hv hs hrecv hlength] at hf
    obtain ⟨hbucket, hpassed⟩ := dispatched_frame hf
    have hwaiting : waiting t = total live s.streams +
        if arrives s header.cmd header.streamId then data.length else 0 := waiting_dispatched hf
    have hlost : lost s (.payload (some data)) =
        if arrives s header.cmd header.streamId then 0 else data.length := by
      simp only [lost, hrecv, hlength, true_and]
      cases arrives s header.cmd header.streamId <;> rfl
    dsimp only at hbucket
    refine ⟨hpassed, by omega, ?_⟩
    rw [hbucket, hwaiting, hlost, hhand]
    split_ifs <;> omega

/-! ### The other steps -/

lemma waiting_edit {f : Stream → Stream} (hf : ∀ st, (f st).reader = st.reader) (s : State)
    (k : ℕ) : waiting (s.modify k f) = waiting s := by
  have hdropped : ∀ st, (f st).dropped = st.dropped := fun st => by simp only [Stream.dropped, hf]
  have hlive : ∀ st, live (f st) = live st := fun st => by
    simp only [live, hdropped, Stream.unread, Stream.queue, hf]
  rw [waiting_modify, total_modify_eq hlive, inHand_modify (fun st _ => hdropped st), waiting]

lemma waiting_reader {k : ℕ} {st : Stream} {reader : Reader} (hst : s.streams[k]? = some st)
    (hdropped : st.dropped = false) (hsame : reader.handle.dropped = st.reader.handle.dropped) :
    waiting (s.modify k fun st => { st with reader }) + pending st.reader.handle =
      waiting s + pending reader.handle := by
  have hnew : live { st with reader } = pending reader.handle := by
    have hd : Stream.dropped { st with reader } = false := hsame.trans hdropped
    rw [live, hd]
    rfl
  have hold : live st = pending st.reader.handle := by
    rw [live, hdropped]
    rfl
  have hsum := total_modify live hst fun st => { st with reader }
  rw [waiting_modify, inHand_modify (fun st' hst' => ?_), waiting]
  · omega
  · obtain rfl := Option.some.inj (hst.symm.trans hst')
    exact hsame

lemma waiting_drop {k : ℕ} {st : Stream} (hst : s.streams[k]? = some st)
    (hdropped : st.dropped = false) :
    waiting (s.modify k Stream.drop) + (st.unread + handed k s.recv) = waiting s := by
  have hsum := total_modify live hst Stream.drop
  have hnew : live st.drop = 0 := rfl
  have hold : live st = st.unread := by rw [live, hdropped]; rfl
  have hhand : inHand (s.streams.modify k Stream.drop) s.recv + handed k s.recv =
      inHand s.streams s.recv := by
    unfold inHand handed
    split
    · rename_i j _ data _
      rw [getElem?_modify]
      by_cases hj : j = k
      · subst hj
        have hd : st.drop.dropped = true := rfl
        simp [hst, hd, hdropped]
      · cases s.streams[j]? <;> simp [hj, Ne.symm hj]
    · rfl
  rw [waiting_modify, waiting]
  omega

/-- A step that loses `n` tokens puts others back, and leaves a permit if the bucket is empty. -/
structure Tokens (n : ℕ) (s t : State) : Prop where
  recv : t.recv = s.recv
  closed : s.closed = true → t.closed = true
  bucket : s.bucket ≤ t.bucket
  permit : s.bucket < t.bucket → s.bucket ≤ 0 → t.bucketPermit = true
  balance : t.bucket + waiting t + n = s.bucket + waiting s

lemma Tokens.of_eq {n : ℕ} (hrecv : t.recv = s.recv) (hclosed : s.closed = true → t.closed = true)
    (hbucket : t.bucket = s.bucket) (hwaiting : waiting t + n = waiting s) : Tokens n s t :=
  ⟨hrecv, hclosed, hbucket.ge, fun hlt => absurd hbucket hlt.ne', by omega⟩

structure Gives (n : ℕ) (s t : State) : Prop where
  recv : t.recv = s.recv
  closed : s.closed = true → t.closed = true
  bucket : t.bucket = s.bucket + n
  permit : 0 < n → s.bucket ≤ 0 → t.bucketPermit = true
  waiting : waiting t = waiting s

lemma gives_tokens {n : ℕ} (hlow : -2 ^ 31 ≤ s.bucket) (hhigh : s.bucket + n < 2 ^ 31)
    (requests : List Session.WriteRequest) : Gives n s ((s.giveTokens n).sendUpdates requests) := by
  have hsends := same_sendUpdates (s.giveTokens n) requests
  have hgives : Gives n s (s.giveTokens n) := by
    unfold State.giveTokens
    split_ifs with hzero
    · exact ⟨rfl, id, by simp [hzero], fun hn => absurd hzero hn.ne', rfl⟩
    · exact ⟨rfl, id, wrap_eq_self (by omega) hhigh, fun _ hempty => by simp [hempty], rfl⟩
  exact ⟨hsends.recv.trans hgives.recv, fun hc => hsends.closed (hgives.closed hc),
    hsends.bucket.trans hgives.bucket, fun hn hempty => hsends.permit (hgives.permit hn hempty),
    (waiting_congr hsends.streams hsends.recv).trans hgives.waiting⟩

lemma tokens_read (hv : cfg.version = 2) (hs : Inv s) {k n : ℕ} {poll : Bool} {st : Stream}
    {reader : Reader} (hst : s.streams[k]? = some st) (hheld : st.held = true)
    (hreader : reader = readerAfter cfg (s.connected k st) n poll st.reader) :
    Tokens 0 s (((s.modify k fun st => { st with reader }).giveTokens
      (reader.returned - st.reader.returned)).sendUpdates
        (reader.updates.drop st.reader.updates.length)) := by
  obtain ⟨hpending, hle, hsame⟩ : pending reader.handle + (reader.returned - st.reader.returned) =
      pending st.reader.handle ∧ st.reader.returned ≤ reader.returned ∧
        reader.handle.dropped = st.reader.handle.dropped := by
    subst hreader
    cases poll with
    | true => exact returned_consume hv (takes_poll st.reader.handle _ n)
    | false => exact returned_consume hv (takes_read st.reader.handle _ n)
  have hwaiting := waiting_reader hst (not_dropped_of_held hheld) hsame
  have hhigh := hs.high
  have hgives := gives_tokens (s := s.modify k fun st => { st with reader }) hs.low
    (show s.bucket + ((reader.returned - st.reader.returned : ℕ) : ℤ) < 2 ^ 31 by omega)
    (reader.updates.drop st.reader.updates.length)
  have hbucket : _ = s.bucket + _ := hgives.bucket
  have hrest := hgives.waiting
  exact ⟨hgives.recv, hgives.closed, by omega, fun hlt => hgives.permit (by omega), by omega⟩

lemma tokens_step (hv : cfg.version = 2) (hs : Inv s) (ha : Label.receives a = false)
    (h : step cfg s a = some t) : Tokens (lost s a) s t := by
  cases acts_step ha h with
  | edit hdrop hreader _ _ h =>
    have hlost : lost s a = 0 := by cases a <;> first | rfl | exact absurd rfl (hdrop _) | cases ha
    rw [hlost]
    exact .of_eq h.recv h.closed h.bucket
      ((waiting_congr h.streams h.recv).trans (waiting_edit hreader s _))
  | read hst hheld hreader => exact tokens_read hv hs hst hheld hreader
  | drop hst hheld =>
    simp only [lost, hst, hheld, if_true]
    exact .of_eq rfl id rfl (waiting_drop hst (not_dropped_of_held hheld))
  | register _ hlocks =>
    -- the loop has no payload in hand while the lock is free, and the new stream is empty
    refine .of_eq rfl id rfl ?_
    simp only [waiting, State.register, inHand_of_locks hlocks, total_append, total]
    rfl

lemma balance (hv : cfg.version = 2) (hs : Inv s) (h : step cfg s a = some t) :
    t.bucket + waiting t + lost s a = s.bucket + waiting s := by
  cases ha : Label.receives a with
  | false => exact (tokens_step hv hs ha h).balance
  | true =>
    cases a with
    | recv =>
      obtain ⟨hbucket, hwaiting, -⟩ := recv_step h
      rw [hbucket, hwaiting]
      exact Int.add_zero _
    | header x =>
      obtain ⟨hbucket, hwaiting, -⟩ := header_step h
      rw [hbucket, hwaiting]
      exact Int.add_zero _
    | payload x => exact (payload_step hv hs h).2.2
    | _ => cases ha

lemma inv_step (hv : cfg.version = 2) (hs : Inv s) (h : step cfg s a = some t) : Inv t := by
  have hbalance := balance hv hs h
  have hhigh := hs.high
  have hlow := hs.low
  cases ha : Label.receives a with
  | false =>
    have htokens := tokens_step hv hs ha h
    have hle := htokens.bucket
    refine ⟨?_, ?_, ?_, by omega, by omega⟩
    · rw [htokens.recv]
      exact fun hafter => lt_of_lt_of_le (hs.passed hafter) hle
    · rw [htokens.recv]
      exact fun hcheck => (hs.check hcheck).imp (lt_of_lt_of_le · hle) htokens.closed
    · rw [htokens.recv]
      exact hs.length
  | true =>
    cases a with
    | recv =>
      obtain ⟨hbucket, -, hclosed, hcheck, hheader, hpayload⟩ := recv_step h
      refine ⟨?_, fun hrecv => hcheck hrecv hv, fun x hrecv => absurd hrecv (hpayload x), by omega,
        by omega⟩
      rintro (hrecv | ⟨x, hrecv⟩)
      · obtain ⟨hbefore, hopen⟩ := hheader hrecv
        rcases hs.check hbefore with hpos | hshut
        · omega
        · rw [hclosed hshut] at hopen
          cases hopen
      · exact absurd hrecv (hpayload x)
    | header x =>
      obtain ⟨hbucket, -, hafter, hbefore⟩ := header_step h
      have hpos := hs.passed (.inl hbefore)
      rcases hafter with hpassed | ⟨x, hrecv, hlength⟩
      · exact .of_not_passed hpassed (by omega) (by omega)
      refine ⟨fun _ => by omega, fun hcheck => ?_, fun y hy => ?_, by omega, by omega⟩
      · rw [hrecv] at hcheck
        cases hcheck
      · rw [hrecv] at hy
        cases hy
        exact hlength
    | payload x =>
      obtain ⟨hpassed, hlow', -⟩ := payload_step hv hs h
      exact .of_not_passed hpassed hlow' (by omega)
    | _ => cases ha

/-! ### Runs -/

lemma lost_of_none (h : step cfg s a = none) : lost s a = 0 := by
  cases a with
  | payload x =>
    cases x with
    | none => rfl
    | some data =>
      cases hrecv : s.recv with
      | payload header =>
        simp only [step, onPayload, hrecv, ite_eq_left_iff, not_not, reduceCtorEq, imp_false] at h
        simp only [lost, hrecv, h, false_and, if_false]
      | _ => simp only [lost, hrecv]
  | drop k =>
    simp only [step, dropStream] at h
    cases hst : s.streams[k]? with
    | none => simp only [lost, hst]
    | some st =>
      simp only [hst, ite_eq_right_iff, reduceCtorEq, imp_false] at h
      simp only [lost, hst, if_neg h]
  | _ => rfl

lemma sound_init (cfg : Config) (isClient : Bool) :
    Sound cfg (init cfg isClient) ↔ 0 < cfg.maxReceiveBuffer ∧ cfg.maxReceiveBuffer < 2 ^ 31 := by
  have hbucket : (init cfg isClient).bucket = Window.wrap cfg.maxReceiveBuffer := by rw [init]
  have hwaiting : waiting (init cfg isClient) = 0 := rfl
  have hrange := wrap_range cfg.maxReceiveBuffer
  constructor
  · intro hs
    have heq := hs.bucket
    have hfull := hs.full hwaiting
    omega
  · rintro ⟨hpos, hfits⟩
    have hself : Window.wrap cfg.maxReceiveBuffer = cfg.maxReceiveBuffer :=
      wrap_eq_self (by omega) (by omega)
    exact ⟨by omega, by omega⟩

lemma sound_step (hv : cfg.version = 2) (hpos : 0 < cfg.maxReceiveBuffer) (hs : Inv s)
    (hsound : Sound cfg s) (h : step cfg s a = some t) : Sound cfg t ↔ lost s a = 0 := by
  have hbalance := balance hv hs h
  have hbucket := hsound.bucket
  constructor
  · intro ht
    have hbucket' := ht.bucket
    omega
  · intro hlost
    exact ⟨by omega, by omega⟩

/-- **The bucket of a session** is what the limit leaves exactly if no step loses tokens. -/
theorem bucket_iff (cfg : Config) (isClient : Bool) (labels : List Label) :
    Stays (step (v2 cfg)) (Sound (v2 cfg)) (init (v2 cfg) isClient) labels ↔
      (0 < cfg.maxReceiveBuffer ∧ cfg.maxReceiveBuffer < 2 ^ 31) ∧
        Along (step (v2 cfg)) (fun s a => lost s a = 0) (init (v2 cfg) isClient) labels := by
  have hinit := sound_init (v2 cfg) isClient
  have hrule (hmax : 0 < cfg.maxReceiveBuffer ∧ cfg.maxReceiveBuffer < 2 ^ 31) :
      Stays (step (v2 cfg)) (Sound (v2 cfg)) (init (v2 cfg) isClient) labels ↔
        Along (step (v2 cfg)) (fun s a => lost s a = 0) (init (v2 cfg) isClient) labels := by
    have hpos : 0 < (v2 cfg).maxReceiveBuffer := hmax.1
    exact stays_iff_along_of_invariant lost_of_none (inv_step rfl) (sound_step rfl hpos)
      (inv_init (v2 cfg) isClient) (hinit.mpr hmax)
  constructor
  · intro hstays
    have hmax := hinit.mp (hstays 0 _ rfl)
    exact ⟨hmax, (hrule hmax).mp hstays⟩
  · rintro ⟨hmax, halong⟩
    exact (hrule hmax).mpr halong

def oneUpdate : List Label :=
  [.recv, .recv, .recv, .header (some ⟨2, cmdSyn, 0, 1⟩), .recv, .recv, .recv, .recv,
    .header (some ⟨2, cmdUpd, 8, 1⟩), .payload (some (replicate 8 0))]

/-- One update: eight tokens are missing while nothing waits to be read. -/
theorem update_loses_tokens : (∃ s, run (step (v2 {})) (init (v2 {}) false) oneUpdate = some s ∧
      waiting s = 0 ∧ s.bucket = (v2 {}).maxReceiveBuffer - 8) ∧
    ∃ s, run (step (v2 { maxReceiveBuffer := 8 })) (init (v2 { maxReceiveBuffer := 8 }) false)
        (oneUpdate ++ [.recv, .recv]) = some s ∧
      waiting s = 0 ∧ s.recv = .parked ∧ s.bucketPermit = false := by
  refine ⟨⟨_, rfl, ?_, ?_⟩, ⟨_, rfl, ?_, ?_, ?_⟩⟩ <;> decide

end Tokilake.Smux.Bucket
