import Tokilake.Lib.Run
import Tokilake.Smux.Wire

/-! # A multiplexed session

Requests reach the write loop over a control channel, which is served first, and a data channel.  A
stream's `accepted` is a history. -/

namespace Tokilake.Smux.Session

open Lib Smux.Wire Function

structure Config where
  version : UInt8 := 1

/-! ### The sending side -/

inductive WriteRequest
  | syn (streamId : UInt32)
  | data (streamId : UInt32) (data : Bytes)
  | fin (streamId : UInt32)
  | upd (streamId consumed window : UInt32)
  deriving DecidableEq

@[simp] def WriteRequest.frame (version : UInt8) : WriteRequest → Frame
  | .syn streamId => Frame.syn version streamId
  | .data streamId payload => Frame.psh version streamId payload
  | .fin streamId => Frame.fin version streamId
  | .upd streamId consumed window => Frame.upd version streamId consumed window

structure Stream where
  opened : Bool
  finSent : Bool := false
  numWritten : UInt32 := 0
  peerConsumed : UInt32 := 0
  peerWindow : UInt32 := 262144
  accepted : List Bytes := []
  deriving DecidableEq

variable (cfg : Config)

/-- How much of `len` bytes the next write takes; with flow control it may have to wait, or fail. -/
def Stream.writeSize (st : Stream) (len : ℕ) : Option ℕ :=
  if cfg.version = 2 then
    let inflight := st.numWritten - st.peerConsumed
    let win := (st.peerWindow - inflight).toInt32.toInt
    if inflight.toInt32.toInt < 0 then none
    else if 0 < win then some (min len (min maxPayloadSize win.toNat))
    else none
  else some (min len maxPayloadSize)

lemma writeSize_le {cfg : Config} {st : Stream} {len n : ℕ} (h : st.writeSize cfg len = some n) :
    n ≤ maxPayloadSize := by
  unfold Stream.writeSize at h
  dsimp only at h
  split_ifs at h <;>
  · cases h
    omega

def Stream.write (st : Stream) (payload : Bytes) : Stream :=
  { st with
    numWritten := st.numWritten + UInt32.ofNat payload.length
    accepted := st.accepted ++ [payload] }

def Stream.close (st : Stream) : Stream := { st with finSent := true }

def Stream.update (st : Stream) (consumed window : UInt32) : Stream :=
  { st with peerConsumed := consumed, peerWindow := window }

/-- The two channels, where the select stands, the frames written, and the streams. -/
structure State where
  ctrl : List WriteRequest := []
  data : List WriteRequest := []
  polledCtrl : Bool := false
  sent : List Frame := []
  streams : UInt32 → Option Stream := fun _ => none
  nextStreamId : UInt32

def init (isClient : Bool) : State := { nextStreamId := if isClient then 1 else 0 }

variable (s : State)

def State.wire : Bytes := s.sent.flatMap Frame.encode

def channelCapacity : ℕ := 1024

def State.sendCtrl (req : WriteRequest) : Option State :=
  if s.ctrl.length < channelCapacity then some { s with ctrl := s.ctrl ++ [req] } else none

def State.sendData (req : WriteRequest) : Option State :=
  if s.data.length < channelCapacity then some { s with data := s.data ++ [req] } else none

def State.setStream (id : UInt32) (st : Stream) : State :=
  { s with streams := update s.streams id (some st) }

lemma setStream_streams_ne {id j : UInt32} (st : Stream) (h : j ≠ id) :
    (s.setStream id st).streams j = s.streams j := update_of_ne h ..

inductive Label
  | newStream
  | accept (id : UInt32)
  | write (id : UInt32) (bytes : Bytes)
  | close (id : UInt32)
  | sendUpd (id consumed window : UInt32)
  | recvUpd (id consumed window : UInt32)
  | pollCtrl
  | pollData
  | keepAlive
  deriving DecidableEq

/-- A new stream of our own; its `SYN` is in the channel before the caller gets the stream. -/
def openStream : Option State :=
  if s.nextStreamId.toNat < 2 ^ 32 - 3 then
    State.sendCtrl { s.setStream s.nextStreamId { opened := true } with
      nextStreamId := s.nextStreamId + 2 } (.syn s.nextStreamId)
  else none

/-- A stream of the peer.  The guard is an assumption about the peer: its ids have the other parity,
as `new` gives them out, and it does not use one again. -/
def acceptStream (id : UInt32) : Option State :=
  if s.streams id = none ∧ id.toNat % 2 ≠ s.nextStreamId.toNat % 2 then
    some (s.setStream id { opened := false })
  else none

def writeStream (s : State) (id : UInt32) (bytes : Bytes) : Option State :=
  match s.streams id with
  | none => none
  | some st =>
    if st.finSent = true ∨ bytes = [] then none
    else match st.writeSize cfg bytes.length with
      | none => none
      | some n =>
        let s := s.setStream id (st.write (bytes.take n))
        let req := WriteRequest.data id (bytes.take n)
        if st.opened then s.sendData req else s.sendCtrl req

def closeStream (id : UInt32) : Option State :=
  match s.streams id with
  | none => none
  | some st => if st.finSent = true then none else (s.setStream id st.close).sendCtrl (.fin id)

def pollCtrl (s : State) : Option State :=
  if s.polledCtrl = true then none
  else match s.ctrl with
    | [] => some { s with polledCtrl := true }
    | req :: rest => some { s with ctrl := rest, sent := s.sent ++ [req.frame cfg.version] }

def pollData (s : State) : Option State :=
  if s.polledCtrl = false then none
  else match s.data with
    | [] => some { s with polledCtrl := false }
    | req :: rest =>
      some { s with data := rest, polledCtrl := false, sent := s.sent ++ [req.frame cfg.version] }

def step (s : State) : Label → Option State
  | .newStream => openStream s
  | .accept id => acceptStream s id
  | .write id bytes => writeStream cfg s id bytes
  | .close id => closeStream s id
  -- only version two announces windows
  | .sendUpd id consumed window =>
    if cfg.version = 2 ∧ s.streams id ≠ none then s.sendCtrl (.upd id consumed window) else none
  | .recvUpd id consumed window =>
    match s.streams id with
    | none => none
    | some st => if cfg.version = 2 then some (s.setStream id (st.update consumed window)) else none
  | .pollCtrl => pollCtrl cfg s
  | .pollData => pollData cfg s
  | .keepAlive => some { s with sent := s.sent ++ [Frame.nop cfg.version] }

/-! ### The receiving side -/

/-- The payloads of the registered handles and of the ended ones; `alive` until the loop breaks. -/
structure Peer where
  live : UInt32 → Option (List Bytes)
  ended : UInt32 → List (List Bytes) := fun _ => []
  alive : Bool := true

@[simp] def Peer.endStream (p : Peer) (id : UInt32) : Peer :=
  { p with
    live := update p.live id none
    ended := update p.ended id (p.ended id ++ (p.live id).toList) }

def Peer.stop (p : Peer) : Peer where
  live := fun _ => none
  ended := fun id => p.ended id ++ (p.live id).toList
  alive := false

def recvFrame (p : Peer) (f : Frame) : Peer :=
  if p.alive = false then p
  else if f.version ≠ cfg.version then p.stop
  else if f.cmd = cmdSyn then
    let p := p.endStream f.streamId
    { p with live := update p.live f.streamId (some []) }
  else if f.cmd = cmdFin then p.endStream f.streamId
  else if f.cmd = cmdPsh then
    -- a payload for a stream that is not registered is dropped
    { p with live := update p.live f.streamId ((p.live f.streamId).map (· ++ [f.data])) }
  else if f.cmd = cmdUpd then
    if cfg.version ≠ 2 ∨ f.data.length ≠ 8 then p.stop else p
  else p

def Peer.receive (p : Peer) (wire : Bytes) : Peer := (readFrames wire).foldl (recvFrame cfg) p

/-- The payloads of its only handle, once its registration has ended. -/
def Peer.readToEnd (p : Peer) (id : UInt32) : Option Bytes :=
  match p.ended id with
  | [payloads] => some payloads.flatten
  | _ => none

def State.peer : Peer where
  live := fun id => match s.streams id with
    | some st => if st.opened then none else some []
    | none => none

end Tokilake.Smux.Session
