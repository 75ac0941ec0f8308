import Tokilake.Smux.WireOrder

/-! # From the wire to the reader

What the receive loop does for one stream depends on the frames of that stream only: seen from a
stream it is the automaton `View.deliver`.

* `delivered`: the reader gets the bytes in order, in an unbroken run. -/

namespace Tokilake.Smux.Delivery

open Lib Smux.Wire Smux.Session Smux.WireOrder List Frame

variable {cfg : Config} {v : UInt8} {id : UInt32} {p : Peer} {f : Frame} {s : State} {st : Stream}

/-! ### The receive loop seen from one stream -/

structure View where
  live : Option (List Bytes)
  ended : List (List Bytes)

def View.deliver (view : View) (f : Frame) : View :=
  if f.cmd = cmdSyn then ⟨some [], view.ended ++ view.live.toList⟩
  else if f.cmd = cmdFin then ⟨none, view.ended ++ view.live.toList⟩
  else ⟨view.live.map (· ++ [f.data]), view.ended⟩

def view (id : UInt32) (p : Peer) : View := ⟨p.live id, p.ended id⟩

lemma view_recvFrame (id : UInt32) (hp : p.alive = true) (hf : Understood cfg.version f) :
    (recvFrame cfg p f).alive = true ∧ view id (recvFrame cfg p f) =
      if ofStream id f then (view id p).deliver f else view id p := by
  unfold recvFrame
  rw [if_neg (by simp [hp]), if_neg (by simp [hf.version])]
  have hof : f.cmd = cmdSyn ∨ f.cmd = cmdFin ∨ f.cmd = cmdPsh →
      ofStream id f = decide (f.streamId = id) := by
    intro hcmd
    simp [ofStream, hcmd]
  by_cases hsyn : f.cmd = cmdSyn
  · rw [if_pos hsyn, hof (.inl hsyn)]
    refine ⟨hp, ?_⟩
    by_cases hid : f.streamId = id
    · subst hid
      simp [view, View.deliver, hsyn]
    · simp [view, hid, Ne.symm hid]
  rw [if_neg hsyn]
  by_cases hfin : f.cmd = cmdFin
  · rw [if_pos hfin, hof (.inr (.inl hfin))]
    refine ⟨hp, ?_⟩
    by_cases hid : f.streamId = id
    · subst hid
      rw [hfin] at hsyn
      simp [view, View.deliver, hsyn, hfin]
    · simp [view, hid, Ne.symm hid]
  rw [if_neg hfin]
  by_cases hpsh : f.cmd = cmdPsh
  · rw [if_pos hpsh, hof (.inr (.inr hpsh))]
    refine ⟨hp, ?_⟩
    by_cases hid : f.streamId = id
    · subst hid
      simp [view, View.deliver, hsyn, hfin]
    · simp [view, hid, Ne.symm hid]
  have hnone : ofStream id f = false := by simp [ofStream, hsyn, hfin, hpsh]
  have hgood : f.cmd = cmdUpd → ¬ (cfg.version ≠ 2 ∨ f.data.length ≠ 8) := by
    intro hupd
    obtain ⟨hv, hlen⟩ := hf.upd hupd
    simp [hv, hlen]
  rw [if_neg hpsh, hnone]
  by_cases hupd : f.cmd = cmdUpd
  · rw [if_pos hupd, if_neg (hgood hupd)]
    exact ⟨hp, rfl⟩
  · rw [if_neg hupd]
    exact ⟨hp, rfl⟩

lemma view_foldl {frames : List Frame} (hp : p.alive = true)
    (hf : ∀ f ∈ frames, Understood cfg.version f) : view id (frames.foldl (recvFrame cfg) p) =
      (frames.filter (ofStream id)).foldl View.deliver (view id p) := by
  induction frames generalizing p with
  | nil => rfl
  | cons f frames ih =>
    obtain ⟨halive, hview⟩ := view_recvFrame id hp (hf f mem_cons_self)
    rw [foldl_cons, ih halive fun g hg => hf g (mem_cons_of_mem f hg), hview, filter_cons]
    split_ifs <;> rfl

lemma view_receive {frames : List Frame} (hp : p.alive = true)
    (hf : ∀ f ∈ frames, Understood cfg.version f) :
    view id (p.receive cfg (frames.flatMap encode)) =
      (frames.filter (ofStream id)).foldl View.deliver (view id p) := by
  rw [Peer.receive, readFrames_encode fun f hm => (hf f hm).fits, view_foldl hp hf]

/-! ### A stream in order -/

lemma deliver_syn (w : View) : w.deliver (syn v id) = ⟨some [], w.ended ++ w.live.toList⟩ := rfl

lemma deliver_fin (w : View) : w.deliver (fin v id) = ⟨none, w.ended ++ w.live.toList⟩ := rfl

lemma deliver_pushes (payloads got : List Bytes) (ended : List (List Bytes)) :
    (pushes v id payloads).foldl View.deliver ⟨some got, ended⟩ =
      ⟨some (got ++ payloads), ended⟩ := by
  induction payloads generalizing got with
  | nil => simp [pushes]
  | cons payload payloads ih =>
    rw [pushes, map_cons, foldl_cons]
    have hstep : View.deliver ⟨some got, ended⟩ (psh v id payload) =
        ⟨some (got ++ [payload]), ended⟩ := rfl
    rw [hstep]
    simpa [pushes] using ih (got ++ [payload])

lemma deliver_inOrder (v : UInt8) (hst : s.streams id = some st) :
    (inOrder v id st).foldl View.deliver (view id s.peer) = ⟨none, [st.accepted]⟩ := by
  have hstart : (if st.opened then [syn v id] else []).foldl View.deliver (view id s.peer) =
      ⟨some [], []⟩ := by
    cases ho : st.opened <;> simp [view, State.peer, hst, ho, deliver_syn]
  rw [inOrder, foldl_append, foldl_append, hstart, deliver_pushes, nil_append,
    foldl_cons, foldl_nil, deliver_fin]
  rfl

/-! ### Whole runs -/

/-- **A stream in order**: in an unbroken run the peer gets the bytes that the writes accepted. -/
theorem delivered (cfg : Config) (isClient : Bool) {labels : List Label} {s : State} {id : UInt32}
    {st : Stream} (hrun : Run.run (step cfg) (init isClient) labels = some s)
    (hok : Run.Along (step cfg) (Unbroken id) (init isClient) labels)
    (hst : s.streams id = some st) :
    (∃ polls t, (∀ a ∈ polls, Label.isPoll a) ∧ Run.run (step cfg) s polls = some t ∧ t.ctrl = [] ∧
      t.data = []) ∧ (st.finSent = true → s.ctrl = [] → fin cfg.version id ∈ s.sent) ∧
    (fin cfg.version id ∈ s.sent → s.sent.filter (ofStream id) = inOrder cfg.version id st ∧
      (s.peer.receive cfg s.wire).readToEnd id = some st.accepted.flatten) := by
  have hinv : Inv cfg id s := Run.run_invariant inv_step (inv_init cfg id isClient) hok hrun
  have horder := hinv.order st hst
  refine ⟨drains cfg s, fun hclosed hctrl => ?_, fun hfin => ?_⟩
  · rw [hctrl] at horder
    exact mem_of_mem_filter (horder.fin_of_closed hclosed)
  · have hsent := horder.fin_mem (mem_filter.mpr ⟨hfin, by simp⟩)
    refine ⟨hsent, ?_⟩
    have hview : view id (s.peer.receive cfg s.wire) = _ := view_receive rfl hinv.sent
    rw [hsent, deliver_inOrder cfg.version hst] at hview
    have hended : (s.peer.receive cfg s.wire).ended id = [st.accepted] := congrArg View.ended hview
    rw [Peer.readToEnd, hended]

/-- A client opens a stream, writes two bytes and closes it after the loop has taken the data. -/
theorem delivered_two_bytes : ∃ s, Run.run (step {}) (init true)
        [.newStream, .pollCtrl, .write 1 [104, 105], .pollCtrl, .pollData, .close 1,
          .pollCtrl] = some s ∧
      s.sent = [syn 1 1, psh 1 1 [104, 105], fin 1 1] ∧
      (s.peer.receive {} s.wire).readToEnd 1 = some [104, 105] := by
  refine ⟨_, rfl, by decide, ?_⟩
  have hok : Run.Along (step {}) (Unbroken 1) (init true)
      [.newStream, .pollCtrl, .write 1 [104, 105], .pollCtrl, .pollData, .close 1, .pollCtrl] := by
    decide
  exact ((delivered {} true rfl hok rfl).2.2 (by decide)).2

/-- A stream is closed while its data wait: the `FIN` is served first, and the data are dropped. -/
theorem overtaken : (Run.run (step {}) (init true)
        [.newStream, .pollCtrl, .write 1 [104, 105], .close 1, .pollCtrl, .pollCtrl, .pollData]).map
      (fun s => (s.sent, (s.streams 1).map Stream.accepted,
        (s.peer.receive {} s.wire).readToEnd 1)) =
    some ([syn 1 1, fin 1 1, psh 1 1 [104, 105]], some [[104, 105]], some []) := by
  decide

end Tokilake.Smux.Delivery
