import Tokilake.Lib.Segments
import Tokilake.Smux.WireOrder

/-! # Frames over a segmented transport

The receive loop reads a frame with two exact reads, whatever segments the transport delivers.

* `recovered`: the frames are the ones that were sent. -/

namespace Tokilake.Smux.Transport

open Lib.Run Lib.Segments Smux.Wire Smux.Session List
open Smux.WireOrder

/-! ### The reader of the receive loop -/

def recvFrameBytes (segs : List Bytes) : Except Bytes (Frame × List Bytes) :=
  match readExact headerSize segs with
  | .error got => .error got
  | .ok (hdr, segs) =>
    match decodeHeader hdr with
    | none => .error hdr
    | some header =>
      if header.length = 0 then .ok (⟨header.version, header.cmd, header.streamId, []⟩, segs)
      else match readExact header.length segs with
        | .error got => .error (hdr ++ got)
        | .ok (payload, segs) => .ok (⟨header.version, header.cmd, header.streamId, payload⟩, segs)

def recvFramesFuel : ℕ → List Bytes → List Frame × Bytes
  | 0, segs => ([], segs.flatten)
  | fuel + 1, segs =>
    match recvFrameBytes segs with
    | .error got => ([], got)
    | .ok (f, segs) => (f :: (recvFramesFuel fuel segs).1, (recvFramesFuel fuel segs).2)

/-- The frames of a transport, and the bytes left over; the number of bytes is fuel enough. -/
def recvFrames (segs : List Bytes) : List Frame × Bytes := recvFramesFuel segs.flatten.length segs

/-! ### The segments do not matter -/

variable {segs : List Bytes} {rest : Bytes}

lemma decodeHeader_take {bs : Bytes} {header : FrameHeader} (h : decodeHeader bs = some header) :
    decodeHeader (bs.take headerSize) = some header := by
  unfold decodeHeader at h
  split at h
  · exact h
  · cases h

lemma recvFrameBytes_encode {f : Frame} (hf : f.Fits) (h : Segmented segs (f.encode ++ rest)) :
    ∃ left, recvFrameBytes segs = .ok (f, left) ∧ Segmented left rest := by
  have hlen := length_encode f
  have hheader := decodeHeader_encode hf rest
  obtain ⟨behind, hread, hbehind⟩ := readExact_ok h (n := headerSize) (by
    rw [length_append]
    omega)
  rw [drop_encode] at hbehind
  rw [recvFrameBytes, hread]
  simp only [decodeHeader_take hheader]
  by_cases hempty : f.data = []
  · refine ⟨behind, ?_, by simpa [hempty] using hbehind⟩
    rw [if_pos (by simp [hempty]), ← hempty]
  obtain ⟨left, hpayload, hleft⟩ := readExact_ok hbehind (n := f.data.length) (by simp)
  rw [take_left] at hpayload
  rw [drop_left] at hleft
  refine ⟨left, ?_, hleft⟩
  rw [if_neg (by simpa using hempty), hpayload]

lemma recvFramesFuel_nil {fuel : ℕ} (h : Segmented segs []) :
    recvFramesFuel fuel segs = ([], []) := by
  cases fuel with
  | zero => rw [recvFramesFuel, h.flatten]
  | succ fuel =>
    have hread := readExact_error h (n := headerSize) (by decide)
    rw [recvFramesFuel, recvFrameBytes, hread]

lemma recvFramesFuel_encode {frames : List Frame} (hfits : ∀ f ∈ frames, f.Fits) {fuel : ℕ}
    (hfuel : frames.length ≤ fuel) (h : Segmented segs (frames.flatMap Frame.encode)) :
    recvFramesFuel fuel segs = (frames, []) := by
  induction frames generalizing fuel segs with
  | nil => exact recvFramesFuel_nil h
  | cons f frames ih =>
    rw [forall_mem_cons] at hfits
    rw [length_cons] at hfuel
    obtain ⟨fuel, rfl⟩ : ∃ n, fuel = n + 1 := ⟨fuel - 1, by omega⟩
    obtain ⟨left, hread, hleft⟩ := recvFrameBytes_encode hfits.1 h
    have hrest : recvFramesFuel fuel left = (frames, []) := ih hfits.2 (by omega) hleft
    rw [recvFramesFuel, hread]
    simp only [hrest]

lemma recvFrames_encode {frames : List Frame} (hfits : ∀ f ∈ frames, f.Fits)
    (h : Segmented segs (frames.flatMap Frame.encode)) : recvFrames segs = (frames, []) := by
  refine recvFramesFuel_encode hfits ?_ h
  rw [h.flatten]
  exact length_le_flatMap_encode frames

/-! ### The frames of a session fit -/

variable {cfg : Config} {s t : State}

structure AllFit (cfg : Config) (s : State) : Prop where
  sent : ∀ f ∈ s.sent, f.Fits
  ctrl : ∀ req ∈ s.ctrl, (req.frame cfg.version).Fits
  data : ∀ req ∈ s.data, (req.frame cfg.version).Fits

lemma allFit_init (isClient : Bool) : AllFit cfg (init isClient) := ⟨nofun, nofun, nofun⟩

lemma AllFit.setStream (h : AllFit cfg s) (id : UInt32) (st : Stream) :
    AllFit cfg (s.setStream id st) := ⟨h.sent, h.ctrl, h.data⟩

lemma AllFit.sendCtrl {req : WriteRequest} (h : AllFit cfg s) (ht : s.sendCtrl req = some t)
    (hreq : (req.frame cfg.version).Fits) : AllFit cfg t := by
  obtain rfl := sendCtrl_eq ht
  refine ⟨h.sent, ?_, h.data⟩
  rw [forall_mem_append, forall_mem_singleton]
  exact ⟨h.ctrl, hreq⟩

lemma AllFit.sendData {req : WriteRequest} (h : AllFit cfg s) (ht : s.sendData req = some t)
    (hreq : (req.frame cfg.version).Fits) : AllFit cfg t := by
  obtain rfl := sendData_eq ht
  refine ⟨h.sent, h.ctrl, ?_⟩
  rw [forall_mem_append, forall_mem_singleton]
  exact ⟨h.data, hreq⟩

lemma allFit_write {id : UInt32} {bytes : Bytes} (h : AllFit cfg s)
    (ht : writeStream cfg s id bytes = some t) : AllFit cfg t := by
  unfold writeStream at ht
  split at ht
  · cases ht
  split at ht
  · cases ht
  split at ht
  · cases ht
  rename_i n hn
  have hreq := (length_take_le n bytes).trans (writeSize_le hn)
  split_ifs at ht
  · exact (h.setStream id _).sendData ht hreq
  · exact (h.setStream id _).sendCtrl ht hreq

lemma allFit_pollCtrl (h : AllFit cfg s) (ht : pollCtrl cfg s = some t) : AllFit cfg t := by
  unfold pollCtrl at ht
  split_ifs at ht
  split at ht
  · cases ht
    exact ⟨h.sent, h.ctrl, h.data⟩
  rename_i req rest hctrl
  cases ht
  have hall := h.ctrl
  rw [hctrl, forall_mem_cons] at hall
  refine ⟨?_, hall.2, h.data⟩
  rw [forall_mem_append, forall_mem_singleton]
  exact ⟨h.sent, hall.1⟩

lemma allFit_pollData (h : AllFit cfg s) (ht : pollData cfg s = some t) : AllFit cfg t := by
  unfold pollData at ht
  split_ifs at ht
  split at ht
  · cases ht
    exact ⟨h.sent, h.ctrl, h.data⟩
  rename_i req rest hdata
  cases ht
  have hall := h.data
  rw [hdata, forall_mem_cons] at hall
  refine ⟨?_, h.ctrl, hall.2⟩
  rw [forall_mem_append, forall_mem_singleton]
  exact ⟨h.sent, hall.1⟩

lemma allFit_step {a : Label} (h : AllFit cfg s) (ht : step cfg s a = some t) : AllFit cfg t := by
  cases a with
  | newStream =>
    simp only [step, openStream] at ht
    split_ifs at ht
    refine AllFit.sendCtrl ?_ ht (understood_syn _).fits
    exact ⟨h.sent, h.ctrl, h.data⟩
  | accept id =>
    simp only [step, acceptStream] at ht
    split_ifs at ht
    cases ht
    exact h.setStream id _
  | write id bytes => exact allFit_write h ht
  | close id =>
    simp only [step, closeStream] at ht
    split at ht
    · cases ht
    split_ifs at ht
    exact (h.setStream id _).sendCtrl ht (understood_fin id).fits
  | sendUpd id consumed window =>
    simp only [step] at ht
    split_ifs at ht with hv
    exact h.sendCtrl ht (understood_upd id consumed window hv.1).fits
  | recvUpd id consumed window =>
    simp only [step] at ht
    split at ht
    · cases ht
    split_ifs at ht
    cases ht
    exact h.setStream id _
  | pollCtrl => exact allFit_pollCtrl h ht
  | pollData => exact allFit_pollData h ht
  | keepAlive =>
    cases ht
    refine ⟨?_, h.ctrl, h.data⟩
    rw [forall_mem_append, forall_mem_singleton]
    exact ⟨h.sent, understood_nop.fits⟩

/-- **Frames come through**, however their bytes are cut into segments. -/
theorem recovered :
    (∀ (frames : List Frame) (segs : List Bytes), (∀ f ∈ frames, f.data.length ≤ 65535) →
      Segmented segs (frames.flatMap Frame.encode) → recvFrames segs = (frames, [])) ∧
    ∀ (cfg : Config) (isClient : Bool) (labels : List Label) (s : State),
      run (step cfg) (init isClient) labels = some s → ∀ f ∈ s.sent, f.data.length ≤ 65535 := by
  refine ⟨fun frames segs hfits h => recvFrames_encode hfits h, ?_⟩
  intro cfg isClient labels s hrun
  exact (run_invariant' allFit_step (allFit_init isClient) hrun).sent

/-- Two frames in three segments, and a session that has written some bytes. -/
theorem recovered_two_frames :
    recvFrames [[1, 0, 0], [0, 3, 0, 0, 0, 1], [2, 2, 0, 3, 0, 0, 0, 7, 8]] =
      ([Frame.syn 1 3, Frame.psh 1 3 [7, 8]], []) ∧
    ∃ s, run (step {}) (init true) [.newStream, .write 1 [7, 8], .pollCtrl, .pollCtrl, .pollData] =
      some s ∧ s.sent.length = 2 ∧ ∀ f ∈ s.sent, f.data.length ≤ 65535 := by
  refine ⟨recovered.1 _ _ (by decide) ⟨by decide, by decide⟩, ?_⟩
  have hend : (run (step {}) (init true)
      [.newStream, .write 1 [7, 8], .pollCtrl, .pollCtrl, .pollData]).map
        (fun s => s.sent.length) = some 2 := by decide
  obtain ⟨s, hrun, hsent⟩ := Option.map_eq_some_iff.mp hend
  exact ⟨s, hrun, hsent, recovered.2 _ _ _ s hrun⟩

end Tokilake.Smux.Transport
