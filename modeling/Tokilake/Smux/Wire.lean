import Tokilake.Lib.LittleEndian

/-! # Frames on the wire

A frame is a header of eight bytes and its payload.

* `readFrames_encode`: what is written is read. -/

namespace Tokilake.Smux.Wire

open Lib.LittleEndian List

abbrev Bytes := List UInt8

def cmdSyn : UInt8 := 0

def cmdFin : UInt8 := 1

def cmdPsh : UInt8 := 2

def cmdNop : UInt8 := 3

def cmdUpd : UInt8 := 4

def headerSize : ℕ := 8

def maxPayloadSize : ℕ := 65535

structure Frame where
  version : UInt8
  cmd : UInt8
  streamId : UInt32
  data : Bytes := []
  deriving DecidableEq

variable (version : UInt8)

def Frame.syn (streamId : UInt32) : Frame := { version, cmd := cmdSyn, streamId }

def Frame.fin (streamId : UInt32) : Frame := { version, cmd := cmdFin, streamId }

def Frame.psh (streamId : UInt32) (data : Bytes) : Frame :=
  { version, cmd := cmdPsh, streamId, data }

def Frame.nop : Frame := { version, cmd := cmdNop, streamId := 0 }

def Frame.upd (streamId consumed window : UInt32) : Frame :=
  { version, cmd := cmdUpd, streamId, data := toLE 4 consumed.toNat ++ toLE 4 window.toNat }

def Frame.encodeHeader (f : Frame) : Bytes :=
  f.version :: f.cmd :: (toLE 2 f.data.length ++ toLE 4 f.streamId.toNat)

def Frame.encode (f : Frame) : Bytes := f.encodeHeader ++ f.data

structure FrameHeader where
  version : UInt8
  cmd : UInt8
  length : ℕ
  streamId : UInt32
  deriving DecidableEq

def decodeHeader : Bytes → Option FrameHeader
  | version :: cmd :: l₀ :: l₁ :: i₀ :: i₁ :: i₂ :: i₃ :: _ =>
    some ⟨version, cmd, fromLE [l₀, l₁], UInt32.ofNat (fromLE [i₀, i₁, i₂, i₃])⟩
  | _ => none

def readFrame (bs : Bytes) : Option (Frame × Bytes) :=
  match decodeHeader bs with
  | none => none
  | some header =>
    let rest := bs.drop headerSize
    if rest.length < header.length then none
    else some (⟨header.version, header.cmd, header.streamId, rest.take header.length⟩,
      rest.drop header.length)

def readFramesFuel : ℕ → Bytes → List Frame
  | 0, _ => []
  | fuel + 1, bs =>
    match readFrame bs with
    | none => []
    | some (f, rest) => f :: readFramesFuel fuel rest

def readFrames (bs : Bytes) : List Frame := readFramesFuel bs.length bs

/-! ### Reading what was written -/

def Frame.Fits (f : Frame) : Prop := f.data.length ≤ maxPayloadSize

lemma length_encode (f : Frame) : f.encode.length = headerSize + f.data.length := by
  simp [Frame.encode, Frame.encodeHeader, headerSize]
  omega

lemma decodeHeader_encode {f : Frame} (h : f.Fits) (rest : Bytes) :
    decodeHeader (f.encode ++ rest) = some ⟨f.version, f.cmd, f.data.length, f.streamId⟩ := by
  have hlen : fromLE (toLE 2 f.data.length) = f.data.length :=
    fromLE_toLE (by unfold Frame.Fits maxPayloadSize at h; omega)
  have hid : fromLE (toLE 4 f.streamId.toNat) = f.streamId.toNat :=
    fromLE_toLE (by have := f.streamId.toNat_lt; omega)
  rw [Frame.encode, Frame.encodeHeader]
  simp only [toLE] at hlen hid
  simp only [toLE, cons_append, nil_append, decodeHeader, hlen, hid, UInt32.ofNat_toNat]

lemma drop_encode (f : Frame) (rest : Bytes) :
    (f.encode ++ rest).drop headerSize = f.data ++ rest := by
  rw [Frame.encode, append_assoc, drop_left' (by simp [Frame.encodeHeader, headerSize])]

lemma readFrame_encode {f : Frame} (h : f.Fits) (rest : Bytes) :
    readFrame (f.encode ++ rest) = some (f, rest) := by
  rw [readFrame, decodeHeader_encode h]
  dsimp only
  rw [drop_encode, if_neg (by simp), take_left, drop_left]

lemma readFramesFuel_encode {frames : List Frame} (h : ∀ f ∈ frames, f.Fits) {fuel : ℕ}
    (hfuel : frames.length ≤ fuel) :
    readFramesFuel fuel (frames.flatMap Frame.encode) = frames := by
  induction frames generalizing fuel with
  | nil => cases fuel <;> rfl
  | cons f frames ih =>
    rw [length_cons] at hfuel
    obtain ⟨fuel, rfl⟩ : ∃ n, fuel = n + 1 := ⟨fuel - 1, by omega⟩
    rw [flatMap_cons, readFramesFuel, readFrame_encode (h f mem_cons_self)]
    dsimp only
    rw [ih (fun g hg => h g (mem_cons_of_mem f hg)) (by omega)]

lemma length_le_flatMap_encode (frames : List Frame) :
    frames.length ≤ (frames.flatMap Frame.encode).length := by
  induction frames with
  | nil => simp
  | cons f frames ih =>
    rw [flatMap_cons, length_append, length_encode, length_cons, headerSize]
    omega

lemma readFrames_encode {frames : List Frame} (h : ∀ f ∈ frames, f.Fits) :
    readFrames (frames.flatMap Frame.encode) = frames :=
  readFramesFuel_encode h (length_le_flatMap_encode frames)

end Tokilake.Smux.Wire
