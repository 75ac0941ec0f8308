import Tokilake.Smux.Session

/-! # The order of a stream's frames

The data of an opened stream take the slow channel, so the wire has the order of the calls only as
long as no `FIN` is taken past data and no data past its `SYN`.

* `inv_step`: the order in every step;
* `drains`: the write loop empties its channels. -/

namespace Tokilake.Smux.WireOrder

open Lib Smux.Wire Smux.Session List Function Frame

variable {cfg : Config} {v : UInt8} {id : UInt32} {s t : State} {st : Stream}

/-! ### The frames of a stream -/

def ofStream (id : UInt32) (f : Frame) : Bool :=
  f.streamId = id ∧ (f.cmd = cmdSyn ∨ f.cmd = cmdFin ∨ f.cmd = cmdPsh)

def queued (v : UInt8) (id : UInt32) (reqs : List WriteRequest) : List Frame :=
  (reqs.map (WriteRequest.frame v)).filter (ofStream id)

@[simp] lemma ofStream_syn (j : UInt32) : ofStream id (syn v j) = decide (j = id) := by
  simp [ofStream, syn]

@[simp] lemma ofStream_fin (j : UInt32) : ofStream id (fin v j) = decide (j = id) := by
  simp [ofStream, fin]

@[simp] lemma ofStream_psh (j : UInt32) (payload : Bytes) :
    ofStream id (psh v j payload) = decide (j = id) := by
  simp [ofStream, psh]

@[simp] lemma ofStream_nop : ofStream id (nop v) = false := by
  simp [ofStream, nop, cmdNop, cmdSyn, cmdFin, cmdPsh]

@[simp] lemma ofStream_upd (j consumed window : UInt32) :
    ofStream id (upd v j consumed window) = false := by
  simp [ofStream, upd, cmdUpd, cmdSyn, cmdFin, cmdPsh]

@[simp] lemma queued_nil : queued v id [] = [] := rfl

@[simp] lemma queued_cons (req : WriteRequest) (reqs : List WriteRequest) :
    queued v id (req :: reqs) =
      if ofStream id (req.frame v) then req.frame v :: queued v id reqs else queued v id reqs := by
  unfold queued
  rw [map_cons, filter_cons]

@[simp] lemma queued_append (reqs reqs' : List WriteRequest) :
    queued v id (reqs ++ reqs') = queued v id reqs ++ queued v id reqs' := by
  simp [queued]

variable {req : WriteRequest}

lemma frame_eq_syn (h : req.frame v = syn v id) : req = .syn id := by
  cases req <;> simp_all [syn, fin, psh, upd, cmdSyn, cmdFin, cmdPsh, cmdUpd]

lemma frame_eq_fin (h : req.frame v = fin v id) : req = .fin id := by
  cases req <;> simp_all [syn, fin, psh, upd, cmdSyn, cmdFin, cmdPsh, cmdUpd]

lemma frame_eq_psh {payload : Bytes} (h : req.frame v = psh v id payload) :
    req = .data id payload := by
  cases req <;> simp_all [syn, fin, psh, upd, cmdSyn, cmdFin, cmdPsh, cmdUpd]

lemma mem_of_mem_queued {reqs : List WriteRequest} {f : Frame} (h : f ∈ queued v id reqs) :
    ∃ req ∈ reqs, req.frame v = f :=
  mem_map.mp (mem_of_mem_filter h)

/-! ### How they are spread -/

def pushes (v : UInt8) (id : UInt32) (payloads : List Bytes) : List Frame := payloads.map (psh v id)

def fins (v : UInt8) (id : UInt32) (st : Stream) : List Frame :=
  if st.finSent then [fin v id] else []

/-- **The spread of a stream's frames** over the wire, the control channel and the data channel. -/
inductive Order (v : UInt8) (id : UInt32) (st : Stream) : List Frame → List Frame →
    List Frame → Prop
  | accepted {wire ctrl : List Frame} (ho : st.opened = false)
      (h : wire ++ ctrl = pushes v id st.accepted ++ fins v id st) : Order v id st wire ctrl []
  | unannounced (ho : st.opened = true) :
      Order v id st [] (syn v id :: fins v id st) (pushes v id st.accepted)
  | announced (written waiting : List Bytes) (ho : st.opened = true)
    (h : st.accepted = written ++ waiting) :
      Order v id st (syn v id :: pushes v id written) (fins v id st) (pushes v id waiting)
  | finished (ho : st.opened = true) (hf : st.finSent = true) :
      Order v id st (syn v id :: (pushes v id st.accepted ++ [fin v id])) [] []

def isDataOf (id : UInt32) : WriteRequest → Bool
  | .data j _ => j = id
  | _ => false

/-- No `FIN` is taken while data wait, and no data while the `SYN` waits. -/
def Unbroken (id : UInt32) (s : State) : Label → Prop
  | .pollCtrl => s.ctrl.head? = some (.fin id) → (∃ st ∈ s.streams id, st.opened = true) →
      s.data.any (isDataOf id) = false
  | .pollData => s.data.head?.any (isDataOf id) = true → .syn id ∉ s.ctrl
  | _ => True

instance (id : UInt32) (s : State) : ∀ a, Decidable (Unbroken id s a)
  | .pollCtrl => decidable_of_iff (s.ctrl.head? = some (.fin id) →
      (s.streams id).any Stream.opened = true → s.data.any (isDataOf id) = false)
      (by simp [Unbroken, Option.any_eq_true])
  | .pollData => inferInstanceAs (Decidable (_ → _))
  | .newStream | .accept _ | .write _ _ | .close _ | .sendUpd _ _ _ | .recvUpd _ _ _ | .keepAlive =>
    isTrue trivial

structure Understood (v : UInt8) (f : Frame) : Prop where
  version : f.version = v
  fits : f.Fits
  upd : f.cmd = cmdUpd → v = 2 ∧ f.data.length = 8

structure Inv (cfg : Config) (id : UInt32) (s : State) : Prop where
  ids : ∀ j, s.streams j ≠ none → j.toNat % 2 = s.nextStreamId.toNat % 2 →
    j.toNat < s.nextStreamId.toNat
  sent : ∀ f ∈ s.sent, Understood cfg.version f
  ctrl : ∀ req ∈ s.ctrl, Understood cfg.version (req.frame cfg.version)
  data : ∀ req ∈ s.data, Understood cfg.version (req.frame cfg.version)
  absent : s.streams id = none → s.sent.filter (ofStream id) = [] ∧
    queued cfg.version id s.ctrl = [] ∧
    queued cfg.version id s.data = []
  order : ∀ st, s.streams id = some st → Order cfg.version id st (s.sent.filter (ofStream id))
    (queued cfg.version id s.ctrl) (queued cfg.version id s.data)

lemma inv_init (cfg : Config) (id : UInt32) (isClient : Bool) : Inv cfg id (init isClient) where
  ids := by simp [init]
  sent := by simp [init]
  ctrl := by simp [init]
  data := by simp [init]
  absent := by simp [init]
  order := by simp [init]

/-! ### What each call and each poll does to the spread -/

section
variable {wire ctrl data : List Frame} {f : Frame} {payload : Bytes}

lemma pushes_append (l : List Bytes) (payload : Bytes) :
    pushes v id (l ++ [payload]) = pushes v id l ++ [psh v id payload] := by
  simp [pushes]

lemma fins_of_not {st : Stream} (h : st.finSent = false) : fins v id st = [] := by simp [fins, h]

section

variable (h : Order v id st wire ctrl data)
include h

lemma Order.update (consumed window : UInt32) :
    Order v id (st.update consumed window) wire ctrl data := by
  cases h with
  | accepted ho h => exact .accepted ho h
  | unannounced ho => exact .unannounced ho
  | announced written waiting ho h => exact .announced written waiting ho h
  | finished ho hf => exact .finished ho hf

lemma Order.write_opened (ho : st.opened = true)
    (hf : st.finSent = false) :
    Order v id (st.write payload) wire ctrl (data ++ [psh v id payload]) := by
  cases h with
  | accepted ho' => exact absurd (ho.symm.trans ho') (by decide)
  | unannounced =>
    rw [← pushes_append]
    exact .unannounced ho
  | announced written waiting _ h =>
    rw [← pushes_append]
    exact .announced written (waiting ++ [payload]) ho (by simp [Stream.write, h])
  | finished _ hf' => exact absurd (hf.symm.trans hf') (by decide)

lemma Order.write_accepted (ho : st.opened = false)
    (hf : st.finSent = false) :
    Order v id (st.write payload) wire (ctrl ++ [psh v id payload]) data := by
  cases h with
  | accepted _ h =>
    refine .accepted ho ?_
    rw [fins_of_not hf, append_nil] at h
    have hf' : (st.write payload).finSent = false := hf
    rw [fins_of_not hf', append_nil, ← append_assoc, h, ← pushes_append]
    rfl
  | unannounced ho' | announced _ _ ho' | finished ho' =>
    exact absurd (ho.symm.trans ho') (by decide)

lemma Order.close (hf : st.finSent = false) :
    Order v id st.close wire (ctrl ++ [fin v id]) data := by
  have hclose : fins v id st.close = [fin v id] := rfl
  cases h with
  | accepted ho h =>
    refine .accepted ho ?_
    rw [fins_of_not hf, append_nil] at h
    rw [hclose, ← append_assoc, h]
    rfl
  | unannounced ho =>
    rw [fins_of_not hf]
    exact .unannounced ho
  | announced written waiting ho h =>
    rw [fins_of_not hf]
    exact .announced written waiting ho h
  | finished _ hf' => exact absurd (hf.symm.trans hf') (by decide)

lemma Order.psh_of_mem_data (hf : f ∈ data) : ∃ payload, f = psh v id payload := by
  have hpushes : ∀ payloads, f ∈ pushes v id payloads → ∃ payload, f = psh v id payload := by
    intro payloads hm
    obtain ⟨payload, -, rfl⟩ := mem_map.mp hm
    exact ⟨payload, rfl⟩
  cases h with
  | accepted | finished => cases hf
  | unannounced | announced => exact hpushes _ hf

end

lemma Order.takeCtrl (h : Order v id st wire (f :: ctrl) data)
    (hfin : f = fin v id → st.opened = true → data = []) :
    Order v id st (wire ++ [f]) ctrl data := by
  generalize hc : f :: ctrl = full at h
  cases h with
  | accepted ho h =>
    subst hc
    exact .accepted ho (by simpa using h)
  | unannounced ho =>
    obtain ⟨rfl, rfl⟩ := cons.inj hc
    exact .announced [] st.accepted ho rfl
  | announced written waiting ho h =>
    unfold fins at hc
    split_ifs at hc with hf
    obtain ⟨rfl, rfl⟩ := cons.inj hc
    -- nothing of the stream is left in the slow channel
    obtain rfl : waiting = [] := map_eq_nil_iff.mp (hfin rfl ho)
    rw [append_nil] at h
    have hfinished : Order v id st _ [] [] := .finished ho hf
    rwa [h] at hfinished
  | finished => cases hc

lemma Order.takeData (h : Order v id st wire ctrl (f :: data)) (hsyn : syn v id ∉ ctrl) :
    Order v id st (wire ++ [f]) ctrl data := by
  generalize hd : f :: data = full at h
  cases h with
  | accepted | finished => cases hd
  | unannounced => exact absurd mem_cons_self hsyn
  | announced written waiting ho h =>
    cases waiting with
    | nil => cases hd
    | cons payload waiting =>
      obtain ⟨rfl, rfl⟩ := cons.inj hd
      rw [cons_append, ← pushes_append]
      exact .announced (written ++ [payload]) waiting ho (by simp [h])

def inOrder (v : UInt8) (id : UInt32) (st : Stream) : List Frame :=
  (if st.opened then [syn v id] else []) ++ pushes v id st.accepted ++ [fin v id]

lemma fin_not_mem_pushes (payloads : List Bytes) : fin v id ∉ pushes v id payloads := by
  simp [pushes, fin, psh, cmdFin, cmdPsh]

lemma fin_not_mem_syn_pushes (payloads : List Bytes) :
    fin v id ∉ syn v id :: pushes v id payloads := by
  rw [mem_cons, not_or]
  exact ⟨by simp [fin, syn, cmdFin, cmdSyn], fin_not_mem_pushes payloads⟩

lemma Order.fin_mem (h : Order v id st wire ctrl data) (hfin : fin v id ∈ wire) :
    wire = inOrder v id st := by
  cases h with
  | accepted ho h =>
    have hall := h ▸ mem_append_left ctrl hfin
    have hf := (mem_append.mp hall).resolve_left (fin_not_mem_pushes st.accepted)
    have hfins : fins v id st = [fin v id] := by
      unfold fins at hf ⊢
      split_ifs at hf ⊢ with hclosed
      · rfl
      · cases hf
    rw [hfins] at h
    rcases eq_nil_or_concat ctrl with rfl | ⟨rest, last, rfl⟩
    · rw [append_nil] at h
      simpa [inOrder, ho] using h
    -- a frame behind the `FIN` would be the `FIN` itself
    rw [concat_eq_append, ← append_assoc] at h
    obtain ⟨hpushes, -⟩ := append_inj' h rfl
    exact absurd (hpushes ▸ mem_append_left rest hfin) (fin_not_mem_pushes st.accepted)
  | unannounced => cases hfin
  | announced written => exact absurd hfin (fin_not_mem_syn_pushes written)
  | finished ho => simp [inOrder, ho]

lemma Order.fin_of_closed (h : Order v id st wire [] data) (hclosed : st.finSent = true) :
    fin v id ∈ wire := by
  have hfins : fins v id st = [fin v id] := by simp [fins, hclosed]
  generalize hc : ([] : List Frame) = ctrl at h
  cases h with
  | accepted _ h =>
    rw [← hc, append_nil, hfins] at h
    simp [h]
  | unannounced => cases hc
  | announced =>
    rw [hfins] at hc
    cases hc
  | finished => simp

end

/-! ### Every step keeps it -/

lemma understood_syn (j : UInt32) : Understood v (syn v j) :=
  ⟨rfl, by simp [Frame.Fits, syn], fun h => absurd h (by simp [syn, cmdSyn, cmdUpd])⟩

lemma understood_fin (j : UInt32) : Understood v (fin v j) :=
  ⟨rfl, by simp [Frame.Fits, fin], fun h => absurd h (by simp [fin, cmdFin, cmdUpd])⟩

lemma understood_psh {payload : Bytes} (h : payload.length ≤ maxPayloadSize) (j : UInt32) :
    Understood v (psh v j payload) :=
  ⟨rfl, h, fun h => absurd h (by simp [psh, cmdPsh, cmdUpd])⟩

lemma understood_upd (j consumed window : UInt32) (hv : v = 2) :
    Understood v (upd v j consumed window) :=
  ⟨rfl, by simp [Frame.Fits, upd, maxPayloadSize], fun _ => ⟨hv, by simp [upd]⟩⟩

lemma understood_nop : Understood v (nop v) :=
  ⟨rfl, by simp [Frame.Fits, nop], fun h => absurd h (by simp [nop, cmdNop, cmdUpd])⟩

lemma sendCtrl_eq (h : s.sendCtrl req = some t) : t = { s with ctrl := s.ctrl ++ [req] } := by
  unfold State.sendCtrl at h
  split_ifs at h
  exact (Option.some.inj h).symm

lemma sendData_eq (h : s.sendData req = some t) : t = { s with data := s.data ++ [req] } := by
  unfold State.sendData at h
  split_ifs at h
  exact (Option.some.inj h).symm

variable {j : UInt32}

lemma Inv.push {st' : Stream} (h : Inv cfg id s) (cs ds : List WriteRequest)
    (hstreams : t.streams = update s.streams j (some st')) (hsent : t.sent = s.sent)
    (hctrl : t.ctrl = s.ctrl ++ cs) (hdata : t.data = s.data ++ ds)
    (hids : ∀ k, t.streams k ≠ none → k.toNat % 2 = t.nextStreamId.toNat % 2 →
      k.toNat < t.nextStreamId.toNat)
    (hreq : ∀ req ∈ cs ++ ds, Understood cfg.version (req.frame cfg.version))
    (hother : j ≠ id → queued cfg.version id cs = [] ∧ queued cfg.version id ds = [])
    (horder : j = id → Order cfg.version id st' (s.sent.filter (ofStream id))
      (queued cfg.version id s.ctrl ++ queued cfg.version id cs)
      (queued cfg.version id s.data ++ queued cfg.version id ds)) : Inv cfg id t := by
  refine ⟨hids, hsent ▸ h.sent, ?_, ?_, fun hnone => ?_, fun st hst => ?_⟩
  · rw [hctrl]
    exact forall_mem_append.mpr ⟨h.ctrl, fun req hr => hreq req (mem_append_left _ hr)⟩
  · rw [hdata]
    exact forall_mem_append.mpr ⟨h.data, fun req hr => hreq req (mem_append_right _ hr)⟩
  · rw [hstreams] at hnone
    have hne : j ≠ id := by
      rintro rfl
      rw [update_self] at hnone
      cases hnone
    rw [update_of_ne hne.symm] at hnone
    obtain ⟨hw, hc, hd⟩ := h.absent hnone
    obtain ⟨hcs, hds⟩ := hother hne
    rw [hsent, hctrl, hdata, queued_append, queued_append, hw, hc, hd, hcs, hds]
    exact ⟨rfl, rfl, rfl⟩
  · rw [hsent, hctrl, hdata, queued_append, queued_append]
    rw [hstreams] at hst
    by_cases hne : j = id
    · rw [hne, update_self] at hst
      exact Option.some.inj hst ▸ horder hne
    rw [update_of_ne (Ne.symm hne)] at hst
    obtain ⟨hcs, hds⟩ := hother hne
    rw [hcs, hds, append_nil, append_nil]
    exact h.order st hst

lemma Inv.ids_update (h : Inv cfg id s) {st' : Stream} (hj : s.streams j ≠ none)
    (hstreams : t.streams = update s.streams j (some st'))
    (hnext : t.nextStreamId = s.nextStreamId) :
    ∀ k, t.streams k ≠ none → k.toNat % 2 = t.nextStreamId.toNat % 2 →
      k.toNat < t.nextStreamId.toNat := by
  intro k hk
  rw [hnext]
  by_cases hkj : k = j
  · exact hkj ▸ h.ids j hj
  · rw [hstreams, update_of_ne hkj] at hk
    exact h.ids k hk

lemma inv_newStream (h : Inv cfg id s) (hs : openStream s = some t) : Inv cfg id t := by
  unfold openStream at hs
  split_ifs at hs with hlast
  obtain rfl := sendCtrl_eq hs
  have hfree : s.streams s.nextStreamId = none := by
    by_contra hne
    exact lt_irrefl _ (h.ids s.nextStreamId hne rfl)
  have hnext : (s.nextStreamId + 2).toNat = s.nextStreamId.toNat + 2 := by
    exact Nat.mod_eq_of_lt (by simp; omega)
  refine h.push [.syn s.nextStreamId] [] rfl rfl rfl (append_nil _).symm ?_ ?_ ?_ ?_
  · intro k hk
    rw [hnext]
    by_cases hkj : k = s.nextStreamId
    · rw [hkj]
      omega
    · have := h.ids k (by simpa [State.setStream, hkj] using hk)
      omega
  · simpa using understood_syn s.nextStreamId
  · intro hne
    simp [hne]
  · rintro rfl
    obtain ⟨hw, hc, hd⟩ := h.absent hfree
    rw [hw, hc, hd]
    have horder : Order cfg.version s.nextStreamId { opened := true } [] _ _ := .unannounced rfl
    simpa [fins, pushes] using horder

lemma inv_accept (h : Inv cfg id s) (hs : acceptStream s j = some t) : Inv cfg id t := by
  unfold acceptStream at hs
  split_ifs at hs with hfree
  cases hs
  refine h.push [] [] rfl rfl (append_nil _).symm (append_nil _).symm ?_ (by simp) (by simp) ?_
  · intro k hk
    by_cases hkj : k = j
    · -- the peer's numbers have the other parity
      intro hp
      exact absurd (hkj ▸ hp) hfree.2
    · exact h.ids k (by simpa [setStream_streams_ne, hkj] using hk)
  · rintro rfl
    obtain ⟨hw, hc, hd⟩ := h.absent hfree.1
    rw [hw, hc, hd]
    exact .accepted rfl rfl

lemma inv_write {bytes : Bytes} (h : Inv cfg id s) (hs : writeStream cfg s j bytes = some t) :
    Inv cfg id t := by
  unfold writeStream at hs
  split at hs
  · cases hs
  next st hst =>
  by_cases hclosed : st.finSent = true ∨ bytes = []
  · rw [if_pos hclosed] at hs
    cases hs
  rw [if_neg hclosed] at hs
  split at hs
  · cases hs
  next n hn =>
  have hj : s.streams j ≠ none := by simp [hst]
  have hopen : st.finSent = false := by simpa using fun hf => hclosed (.inl hf)
  have hreq : Understood cfg.version (psh cfg.version j (bytes.take n)) :=
    understood_psh (by have := writeSize_le hn; simp; omega) j
  have hother : j ≠ id → queued cfg.version id [.data j (bytes.take n)] = [] := by
    intro hne
    simp [hne]
  have hself : queued cfg.version j [.data j (bytes.take n)] =
      [psh cfg.version j (bytes.take n)] := by
    simp
  split_ifs at hs with ho
  · obtain rfl := sendData_eq hs
    refine h.push [] [.data j (bytes.take n)] rfl rfl (append_nil _).symm rfl
      (h.ids_update hj rfl rfl) (by simpa using hreq)
      (fun hne => ⟨rfl, hother hne⟩) ?_
    rintro rfl
    rw [hself, queued_nil, append_nil]
    exact (h.order st hst).write_opened ho hopen
  · obtain rfl := sendCtrl_eq hs
    refine h.push [.data j (bytes.take n)] [] rfl rfl rfl (append_nil _).symm
      (h.ids_update hj rfl rfl) (by simpa using hreq)
      (fun hne => ⟨hother hne, rfl⟩) ?_
    rintro rfl
    rw [hself, queued_nil, append_nil]
    exact (h.order st hst).write_accepted (by simpa using ho) hopen

lemma inv_close (h : Inv cfg id s) (hs : closeStream s j = some t) : Inv cfg id t := by
  unfold closeStream at hs
  split at hs
  · cases hs
  next st hst =>
  split_ifs at hs with hclosed
  obtain rfl := sendCtrl_eq hs
  have hj : s.streams j ≠ none := by simp [hst]
  refine h.push [.fin j] [] rfl rfl rfl (append_nil _).symm (h.ids_update hj rfl rfl) ?_ ?_ ?_
  · simpa using understood_fin j
  · intro hne
    simp [hne]
  · rintro rfl
    simpa using (h.order st hst).close (by simpa using hclosed)

lemma inv_sendUpd {consumed window : UInt32} (h : Inv cfg id s) (hv : cfg.version = 2)
    (hj : s.streams j ≠ none) (hs : s.sendCtrl (.upd j consumed window) = some t) :
    Inv cfg id t := by
  obtain rfl := sendCtrl_eq hs
  obtain ⟨st, hst⟩ := Option.ne_none_iff_exists'.mp hj
  have hstreams : s.streams = update s.streams j (some st) := by rw [← hst, update_eq_self]
  have hnone : ∀ k, queued cfg.version k [.upd j consumed window] = [] := by simp
  refine h.push [.upd j consumed window] [] hstreams rfl rfl (append_nil _).symm h.ids ?_
    (fun _ => ⟨hnone id, rfl⟩) ?_
  · simpa using understood_upd j consumed window hv
  · rintro rfl
    rw [hnone, queued_nil, append_nil, append_nil]
    exact h.order st hst

lemma inv_recvUpd {consumed window : UInt32} (h : Inv cfg id s) (hst : s.streams j = some st) :
    Inv cfg id (s.setStream j (st.update consumed window)) := by
  refine h.push [] [] rfl rfl (append_nil _).symm (append_nil _).symm
    (h.ids_update (by simp [hst]) rfl rfl) (by simp) (by simp) ?_
  rintro rfl
  rw [queued_nil, append_nil, append_nil]
  exact (h.order st hst).update consumed window

lemma Inv.written {f : Frame} (h : Inv cfg id s) (hf : Understood cfg.version f)
    (hstreams : t.streams = s.streams) (hnext : t.nextStreamId = s.nextStreamId)
    (hsent : t.sent = s.sent ++ [f]) (hctrl : t.ctrl ⊆ s.ctrl) (hdata : t.data ⊆ s.data)
    (hother : ofStream id f = false → queued cfg.version id t.ctrl = queued cfg.version id s.ctrl ∧
      queued cfg.version id t.data = queued cfg.version id s.data)
    (htaken : ofStream id f = true →
      f ∈ queued cfg.version id s.ctrl ∨ f ∈ queued cfg.version id s.data)
    (hown : ofStream id f = true → ∀ st, s.streams id = some st →
      Order cfg.version id st (s.sent.filter (ofStream id) ++ [f]) (queued cfg.version id t.ctrl)
        (queued cfg.version id t.data)) : Inv cfg id t := by
  refine ⟨?_, ?_, fun req hr => h.ctrl req (hctrl hr), fun req hr => h.data req (hdata hr),
    fun hnone => ?_, fun st hst => ?_⟩
  · rw [hstreams, hnext]
    exact h.ids
  · rw [hsent]
    exact forall_mem_append.mpr ⟨h.sent, by simpa using hf⟩
  · obtain ⟨hw, hc, hd⟩ := h.absent (hstreams ▸ hnone)
    have hof : ofStream id f = false := by
      by_contra hof
      have := htaken (by simpa using hof)
      simp [hc, hd] at this
    simp [hsent, hof, hother hof, hw, hc, hd]
  · rw [hstreams] at hst
    rw [hsent]
    cases hof : ofStream id f with
    | false => simpa [hof, hother hof] using h.order st hst
    | true => simpa [hof] using hown hof st hst

lemma inv_takeCtrl {rest : List WriteRequest} (h : Inv cfg id s) (hctrl : s.ctrl = req :: rest)
    (hok : Unbroken id s .pollCtrl) :
    Inv cfg id { s with ctrl := rest, sent := s.sent ++ [req.frame cfg.version] } := by
  refine h.written (h.ctrl req (hctrl ▸ mem_cons_self)) rfl rfl rfl
    (hctrl ▸ subset_cons_self req rest) (List.Subset.refl _) (fun hf => ⟨?_, rfl⟩)
    (fun hf => Or.inl ?_) fun hf st hst => ?_
  · rw [hctrl, queued_cons, hf]
    rfl
  · rw [hctrl, queued_cons, if_pos hf]
    exact mem_cons_self
  · have horder := h.order st hst
    rw [hctrl, queued_cons, if_pos hf] at horder
    refine horder.takeCtrl fun hfin ho => ?_
    -- data that wait in the slow channel would be overtaken
    have hnone := hok (by rw [hctrl, frame_eq_fin hfin, head?_cons]) ⟨st, hst, ho⟩
    rw [any_eq_false] at hnone
    by_contra hne
    obtain ⟨f, hmem⟩ := exists_mem_of_ne_nil _ hne
    obtain ⟨payload, rfl⟩ := horder.psh_of_mem_data hmem
    obtain ⟨waiting, hmem, hframe⟩ := mem_of_mem_queued hmem
    rw [frame_eq_psh hframe] at hmem
    exact hnone _ hmem (by simp [isDataOf])

lemma inv_takeData {rest : List WriteRequest} (h : Inv cfg id s) (hdata : s.data = req :: rest)
    (hok : Unbroken id s .pollData) :
    Inv cfg id { s with
      data := rest, polledCtrl := false, sent := s.sent ++ [req.frame cfg.version] } := by
  refine h.written (h.data req (hdata ▸ mem_cons_self)) rfl rfl rfl (List.Subset.refl _)
    (hdata ▸ subset_cons_self req rest) (fun hf => ⟨rfl, ?_⟩) (fun hf => Or.inr ?_)
    fun hf st hst => ?_
  · rw [hdata, queued_cons, hf]
    rfl
  · rw [hdata, queued_cons, if_pos hf]
    exact mem_cons_self
  · have horder := h.order st hst
    rw [hdata, queued_cons, if_pos hf] at horder
    refine horder.takeData fun hsyn => ?_
    obtain ⟨payload, hpsh⟩ := horder.psh_of_mem_data mem_cons_self
    have hhead : s.data.head?.any (isDataOf id) = true := by
      simp [hdata, frame_eq_psh hpsh, isDataOf]
    obtain ⟨first, hmem, hframe⟩ := mem_of_mem_queued hsyn
    rw [frame_eq_syn hframe] at hmem
    exact hok hhead hmem

lemma inv_step {a : Label} (h : Inv cfg id s) (hok : Unbroken id s a) (hs : step cfg s a = some t) :
    Inv cfg id t := by
  cases a with
  | newStream => exact inv_newStream h hs
  | accept j => exact inv_accept h hs
  | write j bytes => exact inv_write h hs
  | close j => exact inv_close h hs
  | sendUpd j consumed window =>
    simp only [step] at hs
    split_ifs at hs with hv
    exact inv_sendUpd h hv.1 hv.2 hs
  | recvUpd j consumed window =>
    simp only [step] at hs
    split at hs
    · cases hs
    · next st hst =>
      split_ifs at hs
      exact Option.some.inj hs ▸ inv_recvUpd h hst
  | pollCtrl =>
    simp only [step, pollCtrl] at hs
    split_ifs at hs
    split at hs
    · exact Option.some.inj hs ▸ ⟨h.ids, h.sent, h.ctrl, h.data, h.absent, h.order⟩
    · next req rest hctrl => exact Option.some.inj hs ▸ inv_takeCtrl h hctrl hok
  | pollData =>
    simp only [step, pollData] at hs
    split_ifs at hs
    split at hs
    · exact Option.some.inj hs ▸ ⟨h.ids, h.sent, h.ctrl, h.data, h.absent, h.order⟩
    · next req rest hdata => exact Option.some.inj hs ▸ inv_takeData h hdata hok
  | keepAlive =>
    cases hs
    have hnop : ofStream id (nop cfg.version) ≠ true := by simp
    exact h.written understood_nop rfl rfl rfl (List.Subset.refl _) (List.Subset.refl _)
      (fun _ => ⟨rfl, rfl⟩) (fun hf => absurd hf hnop) fun hf => absurd hf hnop

/-! ### The loop empties its channels -/

def Label.isPoll (a : Label) : Prop := a = .pollCtrl ∨ a = .pollData

/-- Every request counts, and so does turning to the other channel. -/
def workLeft (s : State) : ℕ :=
  3 * (s.ctrl.length + s.data.length) +
    if s.polledCtrl = true then (if s.data = [] then 2 else 0) else 1

lemma exists_poll (cfg : Config) {s : State} (h : ¬ (s.ctrl = [] ∧ s.data = [])) :
    ∃ a t, Label.isPoll a ∧ step cfg s a = some t ∧ workLeft t < workLeft s := by
  cases hpolled : s.polledCtrl with
  | false =>
    refine ⟨.pollCtrl, ?_⟩
    cases hctrl : s.ctrl with
    | nil =>
      have hdata : s.data ≠ [] := fun hd => h ⟨hctrl, hd⟩
      refine ⟨{ s with polledCtrl := true }, .inl rfl, by simp [step, pollCtrl, hpolled, hctrl], ?_⟩
      simp [workLeft, hpolled, hctrl, hdata]
    | cons req rest =>
      refine ⟨{ s with ctrl := rest, sent := s.sent ++ [req.frame cfg.version] }, .inl rfl,
        by simp [step, pollCtrl, hpolled, hctrl], ?_⟩
      simp [workLeft, hpolled, hctrl]
  | true =>
    refine ⟨.pollData, ?_⟩
    cases hdata : s.data with
    | nil =>
      refine ⟨{ s with polledCtrl := false }, .inr rfl,
        by simp [step, pollData, hpolled, hdata], ?_⟩
      simp [workLeft, hpolled, hdata]
    | cons req rest =>
      refine ⟨{ s with
          data := rest, polledCtrl := false, sent := s.sent ++ [req.frame cfg.version] },
        .inr rfl, by simp [step, pollData, hpolled, hdata], ?_⟩
      simp only [workLeft, hpolled, hdata, length_cons]
      simp
      omega

lemma drains (cfg : Config) (s : State) :
    ∃ polls t, (∀ a ∈ polls, Label.isPoll a) ∧ Run.run (step cfg) s polls = some t ∧ t.ctrl = [] ∧
      t.data = [] := by
  induction hn : workLeft s using Nat.strong_induction_on generalizing s with
  | _ n ih =>
    by_cases hempty : s.ctrl = [] ∧ s.data = []
    · exact ⟨[], s, by simp, rfl, hempty⟩
    · obtain ⟨a, u, ha, hu, hlt⟩ := exists_poll cfg hempty
      obtain ⟨polls, t, hpolls, hrun, hend⟩ := ih (workLeft u) (hn ▸ hlt) u rfl
      exact ⟨a :: polls, t, forall_mem_cons.mpr ⟨ha, hpolls⟩, Run.run_cons.mpr ⟨u, hu, hrun⟩, hend⟩

end Tokilake.Smux.WireOrder
