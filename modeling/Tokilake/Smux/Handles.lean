import Tokilake.Smux.Session

/-! # Stream handles and the stream table

A handle that is not in the table gets no more payloads.  `taken` and `seen` are histories.  That a
frame for a full channel waits only restricts the interleavings, and is not modelled.

* `wf_step`: the table and the handles fit together in every step. -/

namespace Tokilake.Smux.Handles

open Lib Smux.Wire Smux.Session List Function

/-! ### Reading a handle -/

/-- The receiving half of a `Stream`, with the two histories. -/
structure Handle where
  id : UInt32
  queue : List Bytes := []
  readBuf : Bytes := []
  finReceived : Bool := false
  dropped : Bool := false
  taken : Bytes := []
  seen : List Frame := []

def Handle.enqueue (h : Handle) (data : Bytes) : Handle := { h with queue := h.queue ++ [data] }

def Handle.see (h : Handle) (f : Frame) : Handle := { h with seen := h.seen ++ [f] }

def Handle.serve (n : ℕ) (h : Handle) : Option Bytes × Handle :=
  (some (h.readBuf.take n),
    { h with readBuf := h.readBuf.drop n, taken := h.taken ++ h.readBuf.take n })

/-- Without a payload a read waits while the handle is in the table, else it is the end. -/
def Handle.receive (connected : Bool) (n : ℕ) (h : Handle) : List Bytes → Option Bytes × Handle
  | [] =>
    if connected then (none, { h with queue := [] })
    else (some [], { h with queue := [], finReceived := true })
  | data :: queue =>
    if data = [] then h.receive connected n queue
    else Handle.serve n { h with readBuf := data, queue := queue }

variable (connected : Bool)

def Handle.read (n : ℕ) (h : Handle) : Option Bytes × Handle :=
  if h.readBuf ≠ [] then h.serve n
  else if h.finReceived then (some [], h)
  else h.receive connected n h.queue

def Handle.remaining (h : Handle) : Bytes :=
  h.readBuf ++ if h.finReceived then [] else h.queue.flatten

@[simp] def Handle.obtainable (h : Handle) : Bytes := h.taken ++ h.remaining

/-! ### The table -/

/-- The table maps ids to numbers of handles; handles are numbered in the order of their creation.
-/
structure State where
  table : UInt32 → Option ℕ := fun _ => none
  handle : ℕ → Handle
  count : ℕ := 0
  nextStreamId : UInt32
  alive : Bool := true

def init (isClient : Bool) : State where
  handle := fun _ => { id := 0 }
  nextStreamId := if isClient then 1 else 0

variable (s : State)

variable (id : UInt32)

def State.register : State :=
  { s with
    table := update s.table id (some s.count)
    handle := update s.handle s.count { id := id }
    count := s.count + 1 }

def State.unregister : State := { s with table := update s.table id none }

def State.push (data : Bytes) : State :=
  match s.table id with
  | none => s
  | some k =>
    -- the send fails if the receiver is gone, and takes the entry out
    if (s.handle k).dropped then s.unregister id
    else { s with handle := update s.handle k ((s.handle k).enqueue data) }

def State.stop : State := { s with table := fun _ => none, alive := false }

def State.see (f : Frame) : State := { s with handle := fun k => (s.handle k).see f }

def State.dispatch (cfg : Config) (s : State) (f : Frame) : State :=
  if f.cmd = cmdSyn then s.register f.streamId
  else if f.cmd = cmdFin then s.unregister f.streamId
  else if f.cmd = cmdPsh then s.push f.streamId f.data
  else if f.cmd = cmdUpd then
    if cfg.version ≠ 2 ∨ f.data.length ≠ 8 then s.stop else s
  else s

/-- One round of the receive loop, which no longer runs once the session is closed. -/
def State.recv (cfg : Config) (s : State) (f : Frame) : State :=
  if s.alive = false then s
  else if f.version ≠ cfg.version then s.stop
  else (s.see f).dispatch cfg f

/-- A stream of our own; it can come at any time, also in a closed session. -/
def State.openStream : State :=
  if s.nextStreamId.toNat < 2 ^ 32 - 3 then
    { s.register s.nextStreamId with nextStreamId := s.nextStreamId + 2 }
  else s

def State.read (k n : ℕ) : State :=
  let connected : Bool := s.table (s.handle k).id = some k
  { s with handle := update s.handle k ((s.handle k).read connected n).2 }

def State.drop (k : ℕ) : State :=
  { s with handle := update s.handle k { s.handle k with dropped := true } }

/-- A frame arrives, a stream is opened, a handle read or dropped, or the loop ends. -/
inductive Event
  | frame (f : Frame)
  | openStream
  | read (k n : ℕ)
  | drop (k : ℕ)
  | stop

def step (cfg : Config) (s : State) : Event → Option State
  | .frame f => some (s.recv cfg f)
  | .openStream => some s.openStream
  | .read k n => some (s.read k n)
  | .drop k => some (s.drop k)
  | .stop => some s.stop

/-! ### What a handle should yield -/

def isPsh (f : Frame) : Bool := f.cmd = cmdPsh ∧ f.streamId = id

def isFin (f : Frame) : Bool := f.cmd = cmdFin ∧ f.streamId = id

def expected (id : UInt32) : List Frame → List Bytes
  | [] => []
  | f :: seen =>
    if isFin id f then []
    else if isPsh id f then f.data :: expected id seen
    else expected id seen

def finished (seen : List Frame) : Bool := seen.any (isFin id)

structure Faithful (s : State) : Prop where
  bytes : ∀ k < s.count, (s.handle k).dropped = false →
    (s.handle k).obtainable = (expected (s.handle k).id (s.handle k).seen).flatten
  connected : s.alive = true → ∀ k < s.count, (s.handle k).dropped = false →
    finished (s.handle k).id (s.handle k).seen = false → s.table (s.handle k).id = some k

def State.Free : Prop := ∀ k, s.table id = some k → (s.handle k).dropped = true

def Unused (cfg : Config) (s : State) : Event → Prop
  | .frame f => s.alive = true → f.version = cfg.version → f.cmd = cmdSyn → s.Free f.streamId
  | .openStream => s.alive = true → s.nextStreamId.toNat < 2 ^ 32 - 3 → s.Free s.nextStreamId
  | _ => True

variable {cfg : Config} {id : UInt32} {s : State} {f : Frame} {h : Handle} {k n : ℕ}

lemma finished_append (id : UInt32) (seen : List Frame) (f : Frame) :
    finished id (seen ++ [f]) = (finished id seen || isFin id f) := by
  simp [finished]

lemma expected_append (id : UInt32) (seen : List Frame) (f : Frame) : expected id (seen ++ [f]) =
      expected id seen ++ if finished id seen = false ∧ isPsh id f then [f.data] else [] := by
  have hnot : isFin id f = true → isPsh id f = false := by
    intro hfin
    have hcmd : f.cmd = cmdFin := by simpa [isFin] using (of_decide_eq_true hfin).1
    simp [isPsh, hcmd, cmdFin, cmdPsh]
  induction seen with
  | nil =>
    cases hfin : isFin id f
    · cases hpsh : isPsh id f <;> simp [expected, finished, hfin, hpsh]
    · simp [expected, finished, hfin, hnot hfin]
  | cons g seen ih =>
    rw [cons_append, expected, expected, ih]
    have hcons : finished id (g :: seen) = (isFin id g || finished id seen) := rfl
    cases hfin : isFin id g
    · cases hpsh : isPsh id g <;> simp [hcons, hfin]
    · simp [hcons, hfin]

/-! ### Reads -/

lemma serve_obtainable (h : Handle) (n : ℕ) : (h.serve n).2.obtainable = h.obtainable := by
  simp only [Handle.serve, Handle.obtainable, Handle.remaining, append_assoc]
  rw [← append_assoc (h.readBuf.take n), take_append_drop]
  rfl

/-- A read changes neither the stream nor what it yields. -/
structure SameStream (connected : Bool) (h h' : Handle) : Prop where
  id : h'.id = h.id
  seen : h'.seen = h.seen
  dropped : h'.dropped = h.dropped
  obtainable : h'.obtainable = h.obtainable
  finReceived : connected = true → h'.finReceived = h.finReceived

lemma sameStream_serve (h : Handle) (n : ℕ) : SameStream connected h (h.serve n).2 :=
  ⟨rfl, rfl, rfl, serve_obtainable h n, fun _ => rfl⟩

lemma sameStream_receive {connected : Bool} {n : ℕ} (hbuf : h.readBuf = [])
    (hfin : h.finReceived = false) : ∀ queue : List Bytes,
      SameStream connected { h with queue := queue } (h.receive connected n queue).2
  | [] => by
    rw [Handle.receive]
    cases connected
    · exact ⟨rfl, rfl, rfl, by simp [Handle.remaining], by rintro ⟨⟩⟩
    · exact ⟨rfl, rfl, rfl, by simp [Handle.remaining], fun _ => rfl⟩
  | data :: queue => by
    rw [Handle.receive]
    by_cases hdata : data = []
    · obtain ⟨hid, hseen, hdropped, hobt, hfin'⟩ := sameStream_receive hbuf hfin queue
      rw [if_pos hdata]
      refine ⟨hid, hseen, hdropped, ?_, hfin'⟩
      simpa [Handle.remaining, hdata] using hobt
    · rw [if_neg hdata]
      obtain ⟨hid, hseen, hdropped, hobt, hfin'⟩ :=
        sameStream_serve connected { h with readBuf := data, queue := queue } n
      refine ⟨hid, hseen, hdropped, ?_, hfin'⟩
      rw [hobt]
      simp [Handle.remaining, hbuf, hfin]

lemma sameStream_read (h : Handle) (n : ℕ) : SameStream connected h (h.read connected n).2 := by
  unfold Handle.read
  by_cases hbuf : h.readBuf = []
  · rw [if_neg (by simp [hbuf])]
    split_ifs with hfin
    · exact ⟨rfl, rfl, rfl, rfl, fun _ => rfl⟩
    · exact sameStream_receive hbuf (by simpa using hfin) h.queue
  · rw [if_pos hbuf]
    exact sameStream_serve connected h n

lemma serve_taken_lt (n : ℕ) (hbuf : h.readBuf ≠ []) :
    h.taken.length < (h.serve (n + 1)).2.taken.length := by
  have hpos := length_pos_of_ne_nil hbuf
  have hlen : (h.serve (n + 1)).2.taken.length = h.taken.length + min (n + 1) h.readBuf.length := by
    simp [Handle.serve]
  omega

lemma receive_taken_lt {connected : Bool} (n : ℕ) : ∀ {queue : List Bytes}, queue.flatten ≠ [] →
      h.taken.length < (h.receive connected (n + 1) queue).2.taken.length
  | [], hne => absurd rfl hne
  | data :: queue, hne => by
    rw [Handle.receive]
    split_ifs with hdata
    · exact receive_taken_lt n (by simpa [hdata] using hne)
    · exact serve_taken_lt (h := { h with readBuf := data, queue := queue }) n hdata

lemma read_taken_lt (n : ℕ) (hrem : h.remaining ≠ []) :
    h.taken.length < (h.read connected (n + 1)).2.taken.length := by
  unfold Handle.read
  by_cases hbuf : h.readBuf = []
  · have hfin : ¬ h.finReceived = true := by
      intro hfin
      simp [Handle.remaining, hbuf, hfin] at hrem
    rw [if_neg (by simp [hbuf]), if_neg hfin]
    exact receive_taken_lt n (by simpa [Handle.remaining, hbuf, hfin] using hrem)
  · rw [if_pos hbuf]
    exact serve_taken_lt n hbuf

lemma reads_all (n : ℕ) (h : Handle) :
    ∃ m, ((fun h => (h.read connected (n + 1)).2)^[m] h).taken = h.obtainable := by
  generalize hlen : h.remaining.length = len
  induction len using Nat.strong_induction_on generalizing h with
  | _ len ih =>
    by_cases hrem : h.remaining = []
    · exact ⟨0, by simp [hrem]⟩
    have hsame := (sameStream_read connected h (n + 1)).obtainable
    have hlt := read_taken_lt connected n hrem
    have hlens := congrArg length hsame
    simp only [Handle.obtainable, length_append] at hlens
    obtain ⟨m, hm⟩ := ih _ (by omega) (h.read connected (n + 1)).2 rfl
    exact ⟨m + 1, by rw [iterate_succ_apply, hm, hsame]⟩

/-! ### The table is well formed -/

structure Entry (s : State) (id : UInt32) (k : ℕ) : Prop where
  lt : k < s.count
  ofId : (s.handle k).id = id
  finReceived : (s.handle k).finReceived = false
  unfinished : finished id (s.handle k).seen = false

def Wf (s : State) : Prop := ∀ id k, s.table id = some k → Entry s id k

lemma wf_init (isClient : Bool) : Wf (init isClient) := by
  intro id k hk
  cases hk

lemma wf_stop (s : State) : Wf s.stop := by
  intro id k hk
  cases hk

lemma wf_register (hwf : Wf s) (id : UInt32) : Wf (s.register id) := by
  intro j k hk
  by_cases hj : j = id
  · subst hj
    have hkc : s.count = k := by simpa [State.register] using hk
    subst hkc
    refine ⟨Nat.lt_succ_self _, ?_, ?_, ?_⟩ <;> simp [State.register, finished]
  · have hold : s.table j = some k := by simpa [State.register, hj] using hk
    obtain ⟨hlt, hid, hfin, hfd⟩ := hwf j k hold
    have hne : k ≠ s.count := by omega
    refine ⟨Nat.lt_succ_of_lt hlt, ?_, ?_, ?_⟩ <;> simpa [State.register, hne]

lemma unregister_table {j : UInt32} (h : (s.unregister id).table j = some k) :
    j ≠ id ∧ s.table j = some k := by
  by_cases hj : j = id
  · simp [State.unregister, hj] at h
  · exact ⟨hj, by simpa [State.unregister, hj] using h⟩

lemma wf_unregister (hwf : Wf s) (id : UInt32) : Wf (s.unregister id) := by
  intro j k hk
  obtain ⟨hlt, hid, hfin, hfd⟩ := hwf j k (unregister_table hk).2
  exact ⟨hlt, hid, hfin, hfd⟩

lemma wf_update (hwf : Wf s) {h' : Handle} (hid : h'.id = (s.handle k).id)
    (hseen : h'.seen = (s.handle k).seen)
    (hfin : s.table (s.handle k).id = some k → h'.finReceived = (s.handle k).finReceived) :
    Wf { s with handle := update s.handle k h' } := by
  intro id j hj
  obtain ⟨hlt, hjid, hjfin, hfd⟩ := hwf id j hj
  by_cases hjk : j = k
  · subst hjk
    have hin : s.table (s.handle j).id = some j := by rw [hjid]; exact hj
    refine ⟨hlt, ?_, ?_, ?_⟩
    · simp [hid, hjid]
    · simp [hfin hin, hjfin]
    · simp [hseen, hfd]
  · refine ⟨hlt, ?_, ?_, ?_⟩ <;> simpa [hjk]

lemma push_handle (s : State) (id : UInt32) (data : Bytes) (k : ℕ) : (s.push id data).handle k =
      if s.table id = some k ∧ (s.handle k).dropped = false then (s.handle k).enqueue data
      else s.handle k := by
  unfold State.push
  cases htable : s.table id with
  | none => simp
  | some j =>
    by_cases hjk : j = k
    · subst hjk
      cases hd : (s.handle j).dropped <;> simp [hd, State.unregister]
    · cases hd : (s.handle j).dropped <;> simp [hd, hjk, Ne.symm hjk, State.unregister]

lemma push_same (s : State) (id : UInt32) (data : Bytes) (k : ℕ) :
    ((s.push id data).handle k).id = (s.handle k).id ∧
    ((s.push id data).handle k).seen = (s.handle k).seen ∧
    ((s.push id data).handle k).dropped = (s.handle k).dropped := by
  rw [push_handle]
  split_ifs <;> exact ⟨rfl, rfl, rfl⟩

lemma push_count_alive (s : State) (id : UInt32) (data : Bytes) :
    (s.push id data).count = s.count ∧ (s.push id data).alive = s.alive := by
  unfold State.push
  cases s.table id with
  | none => exact ⟨rfl, rfl⟩
  | some k => cases hd : (s.handle k).dropped <;> simp [hd, State.unregister]

lemma push_table {id j : UInt32} {data : Bytes} (hd : (s.handle k).dropped = false)
    (hk : s.table j = some k) : (s.push id data).table j = some k := by
  unfold State.push
  cases htable : s.table id with
  | none => exact hk
  | some i =>
    by_cases hdi : (s.handle i).dropped = true
    · have hne : j ≠ id := by
        rintro rfl
        obtain rfl : i = k := Option.some.inj (htable.symm.trans hk)
        rw [hdi] at hd
        cases hd
      simpa [hdi, State.unregister, hne] using hk
    · simpa [hdi] using hk

lemma wf_push (hwf : Wf s) (id : UInt32) (data : Bytes) : Wf (s.push id data) := by
  unfold State.push
  cases hk : s.table id with
  | none => exact hwf
  | some k =>
    by_cases hd : (s.handle k).dropped = true
    · simp only [hd, if_true]
      exact wf_unregister hwf id
    · simp only [hd]
      exact wf_update hwf rfl rfl fun _ => rfl

lemma wf_read (hwf : Wf s) (k n : ℕ) : Wf (s.read k n) := by
  have hsame := sameStream_read (s.table (s.handle k).id = some k) (s.handle k) n
  exact wf_update hwf hsame.id hsame.seen fun hin => hsame.finReceived (by simp [hin])

lemma entry_see (he : Entry s id k) (hf : isFin id f = false) : Entry (s.see f) id k := by
  refine ⟨he.lt, he.ofId, he.finReceived, ?_⟩
  have hseen : ((s.see f).handle k).seen = (s.handle k).seen ++ [f] := rfl
  rw [hseen, finished_append, he.unfinished, hf]
  rfl

lemma wf_see (hwf : Wf s) (hf : f.cmd ≠ cmdFin) : Wf (s.see f) := fun id k hk =>
  entry_see (hwf id k hk) (by simp [isFin, hf])

lemma wf_dispatch (hwf : Wf s) (f : Frame) : Wf ((s.see f).dispatch cfg f) := by
  unfold State.dispatch
  by_cases hfin : f.cmd = cmdFin
  · rw [if_neg (by simp [hfin, cmdFin, cmdSyn]), if_pos hfin]
    intro j k hk
    obtain ⟨hj, hold⟩ := unregister_table hk
    obtain ⟨hlt, hid, hfr, hfd⟩ := entry_see (hwf j k hold) (f := f) (by simp [isFin, Ne.symm hj])
    exact ⟨hlt, hid, hfr, hfd⟩
  · have hsee := wf_see hwf hfin
    split_ifs
    · exact wf_register hsee _
    · exact wf_push hsee _ _
    · exact wf_stop _
    · exact hsee
    · exact hsee

lemma wf_step {e : Event} {t : State} (hwf : Wf s) (h : step cfg s e = some t) : Wf t := by
  cases e with
  | frame f =>
    cases h
    unfold State.recv
    by_cases halive : s.alive = false
    · rw [if_pos halive]
      exact hwf
    by_cases hversion : f.version = cfg.version
    · rw [if_neg halive, if_neg (by simp [hversion])]
      exact wf_dispatch hwf f
    · rw [if_neg halive, if_pos hversion]
      exact wf_stop s
  | openStream =>
    cases h
    unfold State.openStream
    split_ifs
    · exact fun id k hk => let he := wf_register hwf s.nextStreamId id k hk
        ⟨he.lt, he.ofId, he.finReceived, he.unfinished⟩
    · exact hwf
  | read k n =>
    cases h
    exact wf_read hwf k n
  | drop k =>
    cases h
    exact wf_update hwf rfl rfl fun _ => rfl
  | stop =>
    cases h
    exact wf_stop s

end Tokilake.Smux.Handles
