import Tokilake.Lib.Calls
import Tokilake.Smux.Readers
import Tokilake.Smux.Window

/-! # A session with its loops

A session is a receive loop and a write loop around a table of streams.  `step` is one atomic step
of a loop or of the application, at the places where the source awaits. -/

namespace Tokilake.Smux.Flow

open Lib Lib.LittleEndian Smux.Wire
open Smux.Session (WriteRequest channelCapacity)
open Smux.Readers (Config Reader)

/-! ### Streams -/

/-- Its halves, who opened it and has it; `finSeen` and `finSent` say which `FIN`s there were. -/
structure Stream where
  reader : Reader
  opened : Bool
  sender : Window.State := {}
  given : Bool := false
  finSeen : Bool := false
  finSent : Bool := false

namespace Stream

variable (st : Stream)

def id : UInt32 := st.reader.handle.id

def dropped : Bool := st.reader.handle.dropped

def queue : List Bytes := st.reader.handle.queue

def unread : ℕ := st.reader.handle.readBuf.length + st.queue.flatten.length

def held : Bool := st.given && !st.dropped

def enqueue (data : Bytes) (st : Stream) : Stream := { st with reader := st.reader.enqueue data }

def drop : Stream :=
  { st with reader := { st.reader with handle := { st.reader.handle with dropped := true } } }

def give : Stream := { st with given := true }

def finish : Stream := { st with finSeen := true }

def update (consumed window : UInt32) (st : Stream) : Stream :=
  { st with
    sender := { st.sender with
      peerConsumed := consumed
      peerWindow := window
      windowNotify := true } }

end Stream

/-! ### The session -/

/-- Where the receive loop stands, at its tests, reads and waits, or behind its loop. -/
inductive Recv
  | top
  | tokens
  | parked
  | check
  | header
  | payload (h : FrameHeader)
  | deliver (k : ℕ) (id : UInt32) (data : Bytes)
  | accept (k : ℕ)
  | cleanup
  | ended
  deriving DecidableEq

def Recv.locks : Recv → Bool
  | .deliver _ _ _ => true
  | _ => false

inductive WriteLoop
  | top
  | select
  | writing (f : Frame) (nop : Bool)
  | ended
  deriving DecidableEq

inductive Opening
  | idle
  | locking (id : UInt32)
  | sending (k : ℕ) (id : UInt32)
  deriving DecidableEq

/-- The table and the backlog have numbers of streams; `spawned` are updates still to be sent. -/
structure State where
  closed : Bool := false
  bucket : ℤ
  bucketPermit : Bool := false
  table : UInt32 → Option ℕ := fun _ => none
  streams : List Stream := []
  backlog : List ℕ := []
  nextStreamId : UInt32
  opening : Opening := .idle
  ctrl : List WriteRequest := []
  data : List WriteRequest := []
  spawned : List WriteRequest := []
  recv : Recv := .top
  writeLoop : WriteLoop := .top

def acceptBacklog : ℕ := 1024

def streamCapacity : ℕ := 64

def init (cfg : Config) (isClient : Bool) : State where
  bucket := Window.wrap cfg.maxReceiveBuffer
  nextStreamId := if isClient then 1 else 0

namespace State

variable (s : State)

def modify (k : ℕ) (f : Stream → Stream) : State := { s with streams := s.streams.modify k f }

def register (id : UInt32) (opened : Bool) : State :=
  { s with
    table := Function.update s.table id (some s.streams.length)
    streams := s.streams ++ [{ reader := { handle := { id } }, opened }] }

def unregister (id : UInt32) : State := { s with table := Function.update s.table id none }

def finish (id : UInt32) : State :=
  match s.table id with
  | none => s
  | some k => (s.modify k Stream.finish).unregister id

def takeTokens (cfg : Config) (s : State) (n : ℕ) : State :=
  if cfg.version = 2 then { s with bucket := Window.wrap (s.bucket - n) } else s

def giveTokens (n : ℕ) : State :=
  if n = 0 then s
  else { s with
    bucket := Window.wrap (s.bucket + n)
    bucketPermit := s.bucketPermit || s.bucket ≤ 0 }

def sendUpdates (requests : List WriteRequest) : State :=
  if s.writeLoop = .ended then s
  else if s.ctrl.length + requests.length ≤ channelCapacity then
    { s with ctrl := s.ctrl ++ requests }
  else { s with spawned := s.spawned ++ requests }

/-- Put a request into the control channel, which must have room unless it is closed. -/
def sendCtrl (req : WriteRequest) : Option State :=
  if s.writeLoop = .ended then some s
  else if s.ctrl.length < channelCapacity then some { s with ctrl := s.ctrl ++ [req] }
  else none

end State

/-! ### The receive loop -/

def updConsumed (data : Bytes) : UInt32 := UInt32.ofNat (fromLE (data.take 4))

def updWindow (data : Bytes) : UInt32 := UInt32.ofNat (fromLE (data.drop 4))

variable (cfg : Config)

variable (s : State)

def dispatch (f : Frame) : State :=
  if f.cmd = cmdSyn then { s.register f.streamId false with recv := .accept s.streams.length }
  else if f.cmd = cmdFin then { s.finish f.streamId with recv := .top }
  else if f.cmd = cmdPsh then
    match s.table f.streamId with
    | none => { s with recv := .top }
    | some k => { s with recv := .deliver k f.streamId f.data }
  else if f.cmd = cmdUpd then
    if cfg.version ≠ 2 ∨ f.data.length ≠ 8 then { s with recv := .cleanup }
    else match s.table f.streamId with
      | none => { s with recv := .top }
      | some k =>
        { s.modify k (Stream.update (updConsumed f.data) (updWindow f.data)) with recv := .top }
  else { s with recv := .top }

def recvStep : Option State :=
  match s.recv with
  | .top =>
    some { s with recv := if s.closed then .cleanup
      else if cfg.version = 2 then .tokens else .check }
  | .tokens => some { s with recv := if s.bucket ≤ 0 ∧ s.closed = false then .parked else .check }
  | .parked =>
    if s.bucketPermit then some { s with bucketPermit := false, recv := .tokens } else none
  | .check => some { s with recv := if s.closed then .cleanup else .header }
  | .deliver k id data =>
    match s.streams[k]? with
    | none => none
    | some st =>
      -- the send fails if the receiver is gone, and takes the entry out
      if st.dropped then some { s.unregister id with recv := .top }
      else if st.queue.length < streamCapacity then
        some { s.modify k (Stream.enqueue data) with recv := .top }
      else none
  | .accept k =>
    if s.backlog.length < acceptBacklog then
      some { s with backlog := s.backlog ++ [k], recv := .top }
    else none
  | .cleanup => some { s with table := fun _ => none, closed := true, recv := .ended }
  | .header | .payload _ | .ended => none

def onHeader (h : Option FrameHeader) : Option State :=
  match s.recv, h with
  | .header, none => some { s with recv := .cleanup }
  | .header, some h =>
    if maxPayloadSize < h.length then none
    else if h.version ≠ cfg.version then some { s with recv := .cleanup }
    else if h.length = 0 then some (dispatch cfg s ⟨h.version, h.cmd, h.streamId, []⟩)
    else some { s with recv := .payload h }
  | _, _ => none

def onPayload (data : Option Bytes) : Option State :=
  match s.recv, data with
  | .payload _, none => some { s with recv := .cleanup }
  | .payload h, some data =>
    if data.length ≠ h.length then none
    else some (dispatch cfg (s.takeTokens cfg data.length) ⟨h.version, h.cmd, h.streamId, data⟩)
  | _, _ => none

/-! ### The write loop -/

def writeStep : Option State :=
  match s.writeLoop with
  | .top => some { s with writeLoop := if s.closed then .ended else .select }
  | .select =>
    match s.ctrl, s.data with
    | req :: ctrl, _ => some { s with ctrl, writeLoop := .writing (req.frame cfg.version) false }
    | [], req :: data => some { s with data, writeLoop := .writing (req.frame cfg.version) false }
    | [], [] => none
  | .writing _ _ | .ended => none

/-- A frame has been written, or fails; a failed keepalive does not close the session. -/
def onWritten (ok : Bool) : Option State :=
  match s.writeLoop with
  | .writing _ nop =>
    if ok then some { s with writeLoop := .top }
    else some { s with closed := s.closed || !nop, writeLoop := .ended }
  | _ => none

def onTick (timedOut : Bool) : Option State :=
  if cfg.keepAliveDisabled = false ∧ s.writeLoop = .select ∧ s.ctrl = [] ∧ s.data = [] then
    if timedOut then some { s with closed := true, writeLoop := .ended }
    else some { s with writeLoop := .writing (Frame.nop cfg.version) true }
  else none

/-! ### The application -/

/-- `open` looks at `is_closed`, waits for the lock, and then for room for its `SYN`. -/
def openStream : Option State :=
  match s.opening with
  | .idle =>
    if s.closed = true ∨ 2 ^ 32 - 3 ≤ s.nextStreamId.toNat then some s
    else some { s with
      nextStreamId := s.nextStreamId + 2
      opening := .locking s.nextStreamId }
  | _ => none

def openLock : Option State :=
  match s.opening with
  | .locking id =>
    if s.recv.locks then none
    else some { s.register id true with opening := .sending s.streams.length id }
  | _ => none

def openSend : Option State :=
  match s.opening with
  | .sending k id =>
    (s.sendCtrl (.syn id)).map fun s => { s.modify k Stream.give with opening := .idle }
  | _ => none

def accept : Option State :=
  match s.backlog with
  | [] => none
  | k :: backlog => some { s.modify k Stream.give with backlog }

def close : State := { s with closed := true, bucketPermit := true }

def readerAfter (connected : Bool) (n : ℕ) (poll : Bool) (r : Reader) : Reader :=
  (if poll then r.pollRead cfg connected n else r.read cfg connected n).2

@[simp] def State.connected (k : ℕ) (st : Stream) : Bool := s.table st.id = some k

def readStream (k n : ℕ) (poll : Bool) : Option State :=
  match s.streams[k]? with
  | none => none
  | some st =>
    if st.held then
      let reader := readerAfter cfg (s.connected k st) n poll st.reader
      some (((s.modify k fun st => { st with reader }).giveTokens
        (reader.returned - st.reader.returned)).sendUpdates
          (reader.updates.drop st.reader.updates.length))
    else none

def allows (st : Stream) : Window.Label → Bool
  | .write _ => cfg.version = 2 ∧ st.finSent = false
  | .check closed => closed = s.closed
  | .send true =>
    s.writeLoop ≠ .ended ∧ (if st.opened then s.data else s.ctrl).length < channelCapacity
  | .send false | .closed => s.writeLoop = .ended
  | .loadConsumed | .loadWindow | .compute | .wake => true
  | .storeConsumed _ | .storeWindow _ | .notify => false

def payloadOf (sender : Window.State) : Window.Label → Option Bytes
  | .send true =>
    match sender.phase with
    | .sending payload _ _ => some payload
    | _ => none
  | _ => none

def sendData (st : Stream) (payload : Bytes) : State :=
  if st.opened then { s with data := s.data ++ [.data st.id payload] }
  else { s with ctrl := s.ctrl ++ [.data st.id payload] }

def senderStep (k : ℕ) (a : Window.Label) : Option State :=
  match s.streams[k]? with
  | none => none
  | some st =>
    if st.held && allows cfg s st a then
      (Window.step st.sender a).map fun sender =>
        let s := s.modify k fun st => { st with sender }
        match payloadOf st.sender a with
        | some payload => sendData s st payload
        | none => s
    else none

def writeV1 (k : ℕ) (data : Bytes) : Option State :=
  match s.streams[k]? with
  | none => none
  | some st =>
    if st.held ∧ cfg.version ≠ 2 ∧ st.finSent = false ∧ data ≠ [] ∧
      allows cfg s st (.send true) then
      some (sendData s st (data.take maxPayloadSize))
    else none

def closeStream (k : ℕ) : Option State :=
  match s.streams[k]? with
  | none => none
  | some st =>
    if st.held ∧ st.finSent = false then
      (s.modify k fun st => { st with finSent := true }).sendCtrl (.fin st.id)
    else none

def dropStream (k : ℕ) : Option State :=
  match s.streams[k]? with
  | none => none
  | some st => if st.held then some (s.modify k Stream.drop) else none

def sendSpawned : Option State :=
  match s.spawned with
  | [] => none
  | req :: spawned => { s with spawned }.sendCtrl req

/-! ### Steps -/

inductive Label
  | recv
  | header (h : Option FrameHeader)
  | payload (data : Option Bytes)
  | write
  | written (ok : Bool)
  | tick (timedOut : Bool)
  | openStream
  | openLock
  | openSend
  | accept
  | close
  | read (k n : ℕ) (poll : Bool)
  | sender (k : ℕ) (a : Window.Label)
  | writeV1 (k : ℕ) (data : Bytes)
  | closeStream (k : ℕ)
  | drop (k : ℕ)
  | sendSpawned

def step : Label → Option State
  | .recv => recvStep cfg s
  | .header h => onHeader cfg s h
  | .payload data => onPayload cfg s data
  | .write => writeStep cfg s
  | .written ok => onWritten s ok
  | .tick timedOut => onTick cfg s timedOut
  | .openStream => openStream s
  | .openLock => openLock s
  | .openSend => openSend s
  -- `open` borrows the session, which is neither accepted from nor closed meanwhile
  | .accept => if s.opening = .idle then accept s else none
  | .close => if s.opening = .idle then some (close s) else none
  | .read k n poll => readStream cfg s k n poll
  | .sender k a => senderStep cfg s k a
  | .writeV1 k data => writeV1 cfg s k data
  | .closeStream k => closeStream s k
  | .drop k => dropStream s k
  | .sendSpawned => sendSpawned s

end Tokilake.Smux.Flow
