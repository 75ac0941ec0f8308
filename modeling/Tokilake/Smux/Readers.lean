import Tokilake.Smux.Handles

/-! # The two readers of a stream

`read` goes on to the next payload behind an empty one, `poll_read` returns, which its callers take
for the end.  `Both` is one stream read by both; `returned` and `updates` are histories.

* `agrees_iff`: when both return the same bytes. -/

namespace Tokilake.Smux.Readers

open Lib.Run Smux.Wire Smux.Session Smux.Handles List Handle

structure Config extends Session.Config where
  keepAliveDisabled : Bool := true
  maxReceiveBuffer : ℕ := 4 * 1024 * 1024
  maxStreamBuffer : ℕ := 1024 * 1024

/-! ### The counters of the flow control -/

structure Reader where
  handle : Handle
  numRead : UInt32 := 0
  incr : UInt32 := 0
  returned : ℕ := 0
  updates : List WriteRequest := []

variable (cfg : Config)

def windowUpdateThreshold : UInt32 := UInt32.ofNat (cfg.maxStreamBuffer / 2)

def Reader.consumeTokens (n : ℕ) (r : Reader) : Reader :=
  if cfg.version ≠ 2 ∨ n = 0 then r
  else
    let numRead := r.numRead + UInt32.ofNat n
    let incr := r.incr + UInt32.ofNat n
    let r := { r with numRead, incr, returned := r.returned + n }
    if windowUpdateThreshold cfg ≤ incr ∨ numRead = UInt32.ofNat n then
      { r with
        incr := 0
        updates := r.updates ++ [.upd r.handle.id numRead (UInt32.ofNat cfg.maxStreamBuffer)] }
    else r

def Reader.consume (r : Reader) : Option Bytes × Handle → Option Bytes × Reader
  | (none, h) => (none, { r with handle := h })
  | (some bytes, h) => (some bytes, Reader.consumeTokens cfg bytes.length { r with handle := h })

/-! ### The readers -/

def Reader.read (connected : Bool) (n : ℕ) (r : Reader) : Option Bytes × Reader :=
  r.consume cfg (r.handle.read connected n)

def pollHandle (connected : Bool) (n : ℕ) (h : Handle) : Option Bytes × Handle :=
  if h.readBuf ≠ [] then h.serve n
  else if h.finReceived then (some [], h)
  else match h.queue with
    | [] => if connected then (none, h) else (some [], { h with finReceived := true })
    | data :: queue =>
      (some (data.take n),
        { h with queue, readBuf := data.drop n, taken := h.taken ++ data.take n })

def Reader.pollRead (connected : Bool) (n : ℕ) (r : Reader) : Option Bytes × Reader :=
  r.consume cfg (pollHandle connected n r.handle)

/-! ### One stream, read by both -/

structure Both where
  read : Reader
  poll : Reader
  connected : Bool := true

def start (id : UInt32) : Both := { read := { handle := { id } }, poll := { handle := { id } } }

inductive Event
  | deliver (data : Bytes)
  | fin
  | read (n : ℕ)

@[simp] def Reader.enqueue (data : Bytes) (r : Reader) : Reader :=
  { r with handle := r.handle.enqueue data }

def next (s : Both) : Event → Both
  -- behind the `FIN` the stream is not in the table, and payloads for it are dropped
  | .deliver data =>
    if s.connected then { s with read := s.read.enqueue data, poll := s.poll.enqueue data } else s
  | .fin => { s with connected := false }
  | .read n =>
    { s with
      read := (s.read.read cfg s.connected n).2
      poll := (s.poll.pollRead cfg s.connected n).2 }

def step (s : Both) (e : Event) : Option Both := some (next cfg s e)

def delivered : List Event → List Bytes
  | [] => []
  | .deliver data :: es => data :: delivered es
  | .fin :: _ => []
  | .read _ :: es => delivered es

structure Same (s : Both) : Prop where
  bytes : s.poll.handle.taken = s.read.handle.taken
  tokens : s.poll.returned = s.read.returned
  numRead : s.poll.numRead = s.read.numRead

def AtEnd (s : Both) (r : Reader) : Prop := s.connected = false ∧ r.handle.remaining = []

def EndsOnly (s : Both) : Event → Prop
  | .read n => ((s.read.read cfg s.connected n).1 = some [] → AtEnd s s.read) ∧
      ((s.poll.pollRead cfg s.connected n).1 = some [] → AtEnd s s.poll)
  | _ => True

/-- The readers have yielded the same at every point, and nothing only at the end. -/
def Agrees (s : Both) (es : List Event) : Prop :=
  Stays (step cfg) Same s es ∧ Along (step cfg) (EndsOnly cfg) s es

/-! ### Without empty payloads -/

variable {cfg : Config} {connected : Bool} {n : ℕ} {h : Handle} {s t : Both} {es : List Event}

lemma pollHandle_eq_read (hqueue : ∀ data ∈ h.queue, data ≠ []) :
    pollHandle connected n h = h.read connected n := by
  unfold pollHandle Handle.read
  by_cases hbuf : h.readBuf = []
  · by_cases hfin : h.finReceived = true
    · simp only [hbuf, hfin, ne_eq, not_true_eq_false, if_true, if_false]
    rw [if_neg (not_not_intro hbuf), if_neg hfin, if_neg (not_not_intro hbuf), if_neg hfin]
    cases hq : h.queue with
    | nil =>
      obtain ⟨id, queue, readBuf, finReceived, dropped, taken, seen⟩ := h
      obtain rfl : queue = [] := hq
      rfl
    | cons data queue =>
      have hdata : data ≠ [] := hqueue data (by simp [hq])
      rw [receive, if_neg hdata]
      rfl
  · rw [if_pos hbuf, if_pos hbuf]

structure Sound (connected : Bool) (h : Handle) : Prop where
  full : ∀ data ∈ h.queue, data ≠ []
  fin : h.finReceived = true → connected = false ∧ h.queue = []

lemma receive_nil (connected : Bool) (n : ℕ) (h : Handle) :
    (h.receive connected n []).1 = if connected then none else some [] := by
  cases connected <;> rfl

lemma read_eq_nil (hh : Sound connected h) (hn : n ≠ 0) (hread : (h.read connected n).1 = some []) :
    connected = false ∧ h.remaining = [] := by
  unfold Handle.read at hread
  split_ifs at hread with hbuf hfin
  · rw [Handle.serve, Option.some.injEq, take_eq_nil_iff] at hread
    exact absurd (hread.resolve_left hn) hbuf
  · exact ⟨(hh.fin hfin).1, by simp [remaining, not_ne_iff.mp hbuf, hfin]⟩
  · cases hq : h.queue with
    | nil =>
      have hopen : connected = false := by
        rw [hq, receive_nil] at hread
        cases connected with
        | false => rfl
        | true => cases hread
      exact ⟨hopen, by simp [remaining, not_ne_iff.mp hbuf, hq]⟩
    | cons data queue =>
      have hdata : data ≠ [] := hh.full data (by simp [hq])
      rw [hq, receive, if_neg hdata, serve, Option.some.injEq, take_eq_nil_iff] at hread
      exact absurd (hread.resolve_left hn) hdata

lemma sound_read (hh : Sound connected h) (n : ℕ) : Sound connected (h.read connected n).2 := by
  unfold Handle.read
  split_ifs with hbuf hfin
  · exact ⟨hh.full, hh.fin⟩
  · exact hh
  · cases hq : h.queue with
    | nil =>
      rw [receive]
      cases connected with
      | false => exact ⟨by simp, fun _ => ⟨rfl, rfl⟩⟩
      | true => exact ⟨by simp, fun hfin' => absurd hfin' hfin⟩
    | cons data queue =>
      have hfull := hh.full
      rw [hq, forall_mem_cons] at hfull
      rw [receive, if_neg hfull.1]
      exact ⟨hfull.2, fun hfin' => absurd hfin' hfin⟩

lemma consume_fst (r : Reader) (x : Option Bytes × Handle) : (r.consume cfg x).1 = x.1 := by
  obtain ⟨bytes, h⟩ := x
  cases bytes <;> rfl

lemma consumeTokens_handle (r : Reader) : (r.consumeTokens cfg n).handle = r.handle := by
  unfold Reader.consumeTokens
  split_ifs
  · rfl
  · dsimp only
    split_ifs <;> rfl

lemma consume_handle (r : Reader) (x : Option Bytes × Handle) :
    (r.consume cfg x).2.handle = x.2 := by
  obtain ⟨bytes, h⟩ := x
  cases bytes with
  | none => rfl
  | some bytes => exact consumeTokens_handle _

structure Joined (s : Both) : Prop where
  poll : s.poll = s.read
  sound : Sound s.connected s.read.handle

lemma joined_start (id : UInt32) : Joined (start id) := ⟨rfl, nofun, nofun⟩

lemma Joined.same (hs : Joined s) : Same s := by refine ⟨?_, ?_, ?_⟩ <;> rw [hs.poll]

lemma Joined.pollRead (hs : Joined s) (n : ℕ) :
    s.poll.pollRead cfg s.connected n = s.read.read cfg s.connected n := by
  rw [hs.poll, Reader.pollRead, pollHandle_eq_read hs.sound.full, Reader.read]

lemma joined_step {e : Event} (hs : Joined s) (hread : ∀ n, e = .read n → n ≠ 0)
    (hfull : s.connected = true → ∀ data, e = .deliver data → data ≠ []) :
    Joined (next cfg s e) ∧ EndsOnly cfg s e := by
  cases e with
  | deliver data =>
    refine ⟨?_, trivial⟩
    by_cases hconn : s.connected = true
    · rw [next, if_pos hconn]
      refine ⟨by rw [hs.poll], ?_, fun hfin => ?_⟩
      · dsimp only [Reader.enqueue, enqueue]
        rw [forall_mem_append, forall_mem_singleton]
        exact ⟨hs.sound.full, hfull hconn data rfl⟩
      · exact absurd ((hs.sound.fin hfin).1) (by simp [hconn])
    · rw [next, if_neg hconn]
      exact hs
  | fin => exact ⟨⟨hs.poll, hs.sound.full, fun hfin => ⟨rfl, (hs.sound.fin hfin).2⟩⟩, trivial⟩
  | read n =>
    have hpoll : s.poll.pollRead cfg s.connected n = s.read.read cfg s.connected n := hs.pollRead n
    have hnil : (s.read.read cfg s.connected n).1 = some [] → AtEnd s s.read := by
      rw [Reader.read, consume_fst]
      exact read_eq_nil hs.sound (hread n rfl)
    refine ⟨⟨congrArg Prod.snd hpoll, ?_⟩, hnil, ?_⟩
    · dsimp only [next, Reader.read]
      rw [consume_handle]
      exact sound_read hs.sound n
    · rw [hpoll]
      exact fun h => by rw [AtEnd, hs.poll]; exact hnil h

lemma agrees_of_full (hs : Joined s) (hread : ∀ n, Event.read n ∈ es → n ≠ 0)
    (hfull : s.connected = true → ∀ data ∈ delivered es, data ≠ []) : Agrees cfg s es := by
  induction es generalizing s with
  | nil => exact ⟨stays_nil.mpr hs.same, trivial⟩
  | cons e es ih =>
    have hhead : s.connected = true → ∀ data, e = .deliver data → data ≠ [] := by
      rintro hconn data rfl
      exact hfull hconn data mem_cons_self
    obtain ⟨hjoined, hends⟩ : Joined (next cfg s e) ∧ EndsOnly cfg s e :=
      joined_step hs (fun n hn => hread n (by simp [hn])) hhead
    have hrest : (next cfg s e).connected = true → ∀ data ∈ delivered es, data ≠ [] := by
      intro hconn
      cases e with
      | deliver data =>
        have hconn' : s.connected = true := by
          by_contra hne
          simp [next, hne] at hconn
        exact fun d hd => hfull hconn' d (mem_cons_of_mem _ hd)
      | fin => cases hconn
      | read n => exact hfull hconn
    obtain ⟨hstays, halong⟩ := ih hjoined (fun n hn => hread n (mem_cons_of_mem e hn)) hrest
    refine ⟨(stays_cons rfl).mpr ⟨hs.same, hstays⟩, hends, fun u hu => ?_⟩
    cases hu
    exact halong

/-! ### With an empty payload -/

structure Drained (s : Both) : Prop where
  connected : s.connected = true
  readBuf : s.poll.handle.readBuf = []
  queue : s.poll.handle.queue = []
  finReceived : s.poll.handle.finReceived = false

def readAtOnce (payloads : List Bytes) : List Event :=
  payloads.flatMap fun data => [.deliver data, .read data.length]

lemma delivered_readAtOnce (payloads : List Bytes) (es : List Event) :
    delivered (readAtOnce payloads ++ es) = payloads ++ delivered es := by
  induction payloads with
  | nil => rfl
  | cons data payloads ih => exact congrArg (data :: ·) ih

lemma delivered_deliver (payloads : List Bytes) :
    delivered (payloads.map Event.deliver) = payloads := by
  induction payloads with
  | nil => rfl
  | cons data payloads ih => exact congrArg (data :: ·) ih

lemma pollHandle_single {data : Bytes} (hbuf : h.readBuf = []) (hqueue : h.queue = [data])
    (hfin : h.finReceived = false) (hn : data.length ≤ n) : pollHandle connected n h =
      (some data, { h with queue := [], readBuf := [], taken := h.taken ++ data }) := by
  unfold pollHandle
  rw [if_neg (by simp [hbuf]), if_neg (by simp [hfin]), hqueue]
  simp only [take_of_length_le hn, drop_eq_nil_of_le hn]

lemma drained_readAtOnce {payloads : List Bytes} (hs : Drained s)
    (halong : Along (step cfg) (EndsOnly cfg) s (readAtOnce payloads ++ es)) :
    ∃ t, Drained t ∧ Along (step cfg) (EndsOnly cfg) t es := by
  induction payloads generalizing s with
  | nil => exact ⟨s, hs, halong⟩
  | cons data payloads ih =>
    refine ih ?_ ((halong.2 _ rfl).2 _ rfl)
    have hpoll : pollHandle true data.length (s.poll.enqueue data).handle = _ :=
      pollHandle_single hs.readBuf (by simp [enqueue, hs.queue])
        hs.finReceived le_rfl
    have hnext : (next cfg (next cfg s (.deliver data)) (.read data.length)).poll.handle =
        (pollHandle true data.length (s.poll.enqueue data).handle).2 := by
      simp only [next, hs.connected, if_true, Reader.pollRead, consume_handle]
    refine ⟨?_, ?_, ?_, ?_⟩
    · simp [next, hs.connected]
    · rw [hnext, hpoll]
    · rw [hnext, hpoll]
    · rw [hnext, hpoll]
      exact hs.finReceived

/-- **The readers agree exactly if no payload is empty.** -/
theorem agrees_iff (cfg : Config) (id : UInt32) (payloads : List Bytes) :
    (∀ es : List Event, (∀ n, Event.read n ∈ es → n ≠ 0) → delivered es = payloads →
      Agrees cfg (start id) es) ↔ ∀ data ∈ payloads, data ≠ [] := by
  constructor
  · rintro hall data hdata rfl
    obtain ⟨before, after, rfl, hbefore⟩ := eq_append_cons_of_mem hdata
    -- everything is read at once, up to the first empty payload
    have hreads : ∀ n, Event.read n ∈ readAtOnce before ++
        ([.deliver [], .read 1] ++ after.map Event.deliver) → n ≠ 0 := by
      simp only [readAtOnce, mem_append, mem_flatMap, mem_cons, mem_map]
      rintro n (⟨data, hmem, heq⟩ | heq) hzero
      · subst hzero
        have hlen : 0 = data.length := by simpa using heq
        exact hbefore (length_eq_zero_iff.mp hlen.symm ▸ hmem)
      · subst hzero
        simp at heq
    have hagrees := hall _ hreads (by
      rw [delivered_readAtOnce]
      exact congrArg (before ++ [] :: ·) (delivered_deliver after))
    obtain ⟨t, ht, halong⟩ := drained_readAtOnce ⟨rfl, rfl, rfl, rfl⟩ hagrees.2
    have hends := (halong.2 _ rfl).1.2
    have hqueue : (t.poll.enqueue []).handle.queue = [[]] := by simp [enqueue, ht.queue]
    have hpoll : pollHandle true 1 (t.poll.enqueue []).handle = _ :=
      pollHandle_single ht.readBuf hqueue ht.finReceived (Nat.zero_le 1)
    have hend : AtEnd (next cfg t (.deliver [])) (next cfg t (.deliver [])).poll := by
      refine hends ?_
      rw [Reader.pollRead, consume_fst]
      simp only [next, ht.connected, if_true, hpoll]
    have hclosed := hend.1
    simp [next, ht.connected] at hclosed
  · rintro hfull es hread rfl
    exact agrees_of_full (joined_start id) hread fun _ => hfull

/-- **An empty payload ends the stream for `poll_read`.** -/
theorem poll_ends_early :
    (∃ s, run (step { version := 2 }) (start 3) [.deliver [], .deliver [7]] = some s ∧
      s.connected = true ∧ (s.read.read { version := 2 } s.connected 4).1 = some [7] ∧
      (s.poll.pollRead { version := 2 } s.connected 4).1 = some []) ∧
    ¬ Agrees { version := 2 } (start 3) [.deliver [], .deliver [7], .read 4] := by
  refine ⟨⟨_, rfl, by decide, by decide, by decide⟩, fun hagrees => ?_⟩
  have hbytes := (hagrees.1 3 _ rfl).bytes
  exact absurd hbytes (by decide)

end Tokilake.Smux.Readers
