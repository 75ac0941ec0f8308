import Tokilake.Lib.Calls
import Tokilake.Lib.Text
import Tokilake.Tunnel.Body

/-! # The table of tracked requests

The entry of a request is taken out when the pump returns, or behind a header frame that is an eof
frame.

* `tracked_iff`: when the table has the requests in flight and no others. -/

namespace Tokilake.Tunnel.Tracking

open Lib.Run Lib.Calls Lib.Lines Lib.Text List
open Tunnel.Roundtrip
open Core.TunnelStream (newline)

/-! ### Calls -/

structure SessionInfo where
  sessionId : ℕ
  ns : String
  channelId : ℤ
  deriving DecidableEq

structure InFlightRequest where
  requestId : String
  sessionId : ℕ
  ns : String
  channelId : ℤ
  deriving DecidableEq

inductive Phase
  | finding
  | opening (info : SessionInfo)
  | tracking (info : SessionInfo)
  | serializing
  | writing
  | flushing
  | reading (buffer : Bytes)
  | sending (header : TunnelResponse) (buffer : Bytes)
  | untracking
  | pumping (body : Body.State)
  | over
  deriving DecidableEq

def Phase.inFlight : Phase → Bool
  | .finding | .opening _ | .tracking _ | .over => false
  | _ => true

def Phase.waits : Phase → Bool
  | .finding | .opening _ | .writing | .flushing | .reading _ | .sending _ _ => true
  | _ => false

structure Call where
  requestId : String
  uuid : String
  phase : Phase := .finding
  deriving DecidableEq

structure Args where
  requestId : String
  uuid : String

def start (args : Args) : Call := { requestId := args.requestId, uuid := args.uuid }

def buildRequestId (ns uuid : String) : String :=
  (if trimSpace ns = "" then "tokiame" else trimSpace ns) ++ ":relay:" ++ uuid

/-! ### Steps -/

variable (requests : List InFlightRequest)

def trackRequest (request : InFlightRequest) : List InFlightRequest :=
  (requests.filter fun e => e.requestId ≠ request.requestId) ++ [request]

def removeRequest (requestId : String) : List InFlightRequest :=
  requests.filter fun e => e.requestId ≠ requestId

def cancelRequest (requestId : String) : Option (List InFlightRequest) :=
  some (if requests.any fun e => e.requestId = requestId then removeRequest requests requestId
    else requests)

/-- The session, if there is one; whether the stream opens and takes the request; a read; the
pump's. -/
inductive Input
  | found (info : Option SessionInfo)
  | opened (ok : Bool)
  | track
  | serialized (ok : Bool)
  | written (ok : Bool)
  | flushed (ok : Bool)
  | read (result : Except String Bytes)
  | send
  | pump (a : Body.Label)
  | untrack
  | drop

section

variable (decode : Bytes → Except String TunnelResponse)

def readHeader (buffer : Bytes) : Except String Bytes → Phase
  | .error _ => .over
  | .ok bs =>
    if bs = [] then .over
    else if maxBuffer < (buffer ++ bs).length then .over
    else match takeLine newline (buffer ++ bs) with
      | none => .reading (buffer ++ bs)
      | some (line, rest) =>
        if line.dropLast = [] then .reading rest
        else match decode line.dropLast with
          | .error _ => .over
          | .ok resp => if resp.error = none then .sending resp rest else .over

def advance (requests : List InFlightRequest) (c : Call) (input : Input) :
    Option (List InFlightRequest × Call) :=
  match c.phase, input with
  | .finding, .found none => some (requests, { c with phase := .over })
  | .finding, .found (some info) =>
    some (requests, { c with
      requestId := if trimSpace c.requestId = "" then buildRequestId info.ns c.uuid else c.requestId
      phase := .opening info })
  | .opening info, .opened ok =>
    some (requests, { c with phase := if ok then .tracking info else .over })
  | .tracking info, .track =>
    some (trackRequest requests ⟨c.requestId, info.sessionId, info.ns, info.channelId⟩,
      { c with phase := .serializing })
  | .serializing, .serialized ok =>
    some (requests, { c with phase := if ok then .writing else .over })
  | .writing, .written ok => some (requests, { c with phase := if ok then .flushing else .over })
  | .flushing, .flushed ok => some (requests, { c with phase := if ok then .reading [] else .over })
  | .reading buffer, .read result =>
    some (requests, { c with phase := readHeader decode buffer result })
  -- there is room in the body channel, and the pump is spawned unless the response is complete
  | .sending header buffer, .send =>
    some (requests, { c with
      phase := if header.eof then .untracking else .pumping (Body.start header buffer) })
  | .pumping body, .pump a =>
    (Body.step decode body a).map fun body => (requests, { c with phase := .pumping body })
  | .untracking, .untrack => some (removeRequest requests c.requestId, { c with phase := .over })
  | .pumping body, .untrack =>
    if body.phase = .ended then some (removeRequest requests c.requestId, { c with phase := .over })
    else none
  | phase, .drop => if phase.waits then some (requests, { c with phase := .over }) else none
  | _, _ => none

def system : System (List InFlightRequest) Call Args Input String :=
  ⟨start, fun _ => advance decode, cancelRequest⟩

end

abbrev Tracked := Pool (List InFlightRequest) Call

def init : Tracked := ⟨[], []⟩

/-! ### What the table should be -/

def InFlight (id : String) (c : Call) : Prop := c.phase.inFlight = true ∧ c.requestId = id

def Good (p : Tracked) : Prop :=
  ∀ id, id ∈ p.shared.map InFlightRequest.requestId ↔ ∃ c ∈ p.calls, InFlight id c

def Another (p : Tracked) (i : ℕ) (id : String) : Prop :=
  ∃ j d, j ≠ i ∧ p.calls[j]? = some d ∧ InFlight id d

/-- A request that gets over takes its id out, and none in flight is cancelled from outside. -/
def Careful (decode : Bytes → Except String TunnelResponse) (p : Tracked) :
    Event Args Input String → Prop
  | .arrive _ => True
  | .move i input => ∀ c requests c', p.calls[i]? = some c →
      advance decode p.shared c input = some (requests, c') →
      c.phase.inFlight = true → c'.phase = .over → (input = .untrack ↔ ¬ Another p i c.requestId)
  | .env id => ∀ c ∈ p.calls, ¬ InFlight id c

/-! ### What a step does -/

section

variable {decode : Bytes → Except String TunnelResponse} {p q : Tracked} {i : ℕ} {c c' : Call}
  {requests requests' : List InFlightRequest} {input : Input} {event : Event Args Input String}

inductive Resumes (decode : Bytes → Except String TunnelResponse)
    (reads : List (Except String Bytes)) : First → Phase → Prop
  | reading (buffer : Bytes) : Resumes decode reads (readFirst decode reads buffer)
    (.reading buffer)
  | sending (resp : TunnelResponse) (rest : Bytes) (error : resp.error = none) :
      Resumes decode reads (.response resp rest reads) (.sending resp rest)
  | errorFrame (resp : TunnelResponse) (rest : Bytes) (error : resp.error ≠ none) :
      Resumes decode reads (.response resp rest reads) .over
  | failed (err : TunnelError) : Resumes decode reads (.failed err) .over

lemma readFirst_readHeader (buffer : Bytes) (result : Except String Bytes)
    (reads : List (Except String Bytes)) :
    Resumes decode reads (readFirst decode (result :: reads) buffer)
      (readHeader decode buffer result) := by
  cases result with
  | error err => exact .failed _
  | ok bs =>
    rw [readFirst, readHeader]
    split_ifs with hempty hlarge
    · exact .failed _
    · exact .failed _
    · cases takeLine newline (buffer ++ bs) with
      | none => exact .reading _
      | some x =>
        dsimp only
        split_ifs with hline
        · exact .reading _
        cases decode x.1.dropLast with
        | error err => exact .failed _
        | ok resp =>
          dsimp only
          split_ifs with herror
          · exact .sending resp _ herror
          · exact .errorFrame resp _ herror

inductive Moves (requests : List InFlightRequest) (c : Call) (input : Input) :
    List InFlightRequest → Call → Prop
  | quiet {c' : Call} (same : ∀ id, InFlight id c' ↔ InFlight id c)
      (goesOn : c.phase.inFlight = true → c'.phase ≠ .over) : Moves requests c input requests c'
  | track (info : SessionInfo) (before : c.phase.inFlight = false) : Moves requests c input
        (trackRequest requests ⟨c.requestId, info.sessionId, info.ns, info.channelId⟩)
        { c with phase := .serializing }
  | remove (before : c.phase.inFlight = true) (untrack : input = .untrack) :
      Moves requests c input (removeRequest requests c.requestId) { c with phase := .over }
  | leave (before : c.phase.inFlight = true) (leaves : input ≠ .untrack) :
      Moves requests c input requests { c with phase := .over }

lemma not_inFlight {id : String} (h : c.phase.inFlight = false) : ¬ InFlight id c := by
  simp [InFlight, h]

lemma moves_phase {phase : Phase} (hinput : input ≠ .untrack)
    (h : phase = .over ∨ phase.inFlight = c.phase.inFlight) :
    Moves requests c input requests { c with phase } := by
  rcases h with rfl | hsame
  · cases hbefore : c.phase.inFlight with
    | true => exact .leave hbefore hinput
    | false =>
      exact .quiet (fun id => iff_of_false (not_inFlight rfl) (not_inFlight hbefore))
        (by simp [hbefore])
  · refine .quiet (fun id => by simp [InFlight, hsame]) fun hbefore hover => ?_
    rw [← hsame] at hbefore
    cases hover
    cases hbefore

lemma readHeader_phase (buffer : Bytes) (result : Except String Bytes) :
    readHeader decode buffer result = .over ∨
      (readHeader decode buffer result).inFlight = true := by
  obtain ⟨first, hresumes⟩ : ∃ first, Resumes decode [] first (readHeader decode buffer result) :=
    ⟨_, readFirst_readHeader buffer result []⟩
  generalize readHeader decode buffer result = phase at hresumes ⊢
  cases hresumes with
  | reading | sending => exact .inr rfl
  | errorFrame | failed => exact .inl rfl

lemma advance_cases (h : advance decode requests c input = some (requests', c')) :
    Moves requests c input requests' c' := by
  unfold advance at h
  split at h
  -- these go on or give up, and leave the table alone
  case h_3 _ ok hphase | h_5 ok hphase | h_6 ok hphase | h_7 ok hphase =>
    cases h
    exact moves_phase nofun (by rw [hphase]; cases ok <;> simp [Phase.inFlight])
  · cases h
    exact moves_phase nofun (.inl rfl)
  · rename_i hphase
    cases h
    exact .quiet (fun id => iff_of_false (not_inFlight rfl) (not_inFlight (by simp [hphase]; rfl)))
      nofun
  · rename_i info hphase
    cases h
    exact .track info (by rw [hphase]; rfl)
  · rename_i buffer result hphase
    cases h
    exact moves_phase nofun (by rw [hphase]; exact readHeader_phase buffer result)
  · rename_i header buffer hphase
    cases h
    exact moves_phase nofun (.inr (by rw [hphase]; split_ifs <;> rfl))
  · rename_i body a hphase
    obtain ⟨body', -, heq⟩ := Option.map_eq_some_iff.mp h
    cases heq
    exact moves_phase nofun (.inr (by rw [hphase]; rfl))
  · rename_i hphase
    cases h
    exact .remove (by rw [hphase]; rfl) rfl
  · rename_i body hphase
    split_ifs at h
    cases h
    exact .remove (by rw [hphase]; rfl) rfl
  · split_ifs at h
    cases h
    exact moves_phase nofun (.inl rfl)
  · cases h

/-! ### What a careful step keeps -/

lemma mem_trackRequest (r : InFlightRequest) (id : String) :
    id ∈ (trackRequest requests r).map InFlightRequest.requestId ↔
      id = r.requestId ∨ id ∈ requests.map InFlightRequest.requestId := by
  simp only [trackRequest, map_append, mem_append, mem_map, mem_filter,
    map_cons, map_nil, mem_singleton, decide_eq_true_eq]
  constructor
  · rintro (⟨e, ⟨he, -⟩, rfl⟩ | rfl)
    · exact .inr ⟨e, he, rfl⟩
    · exact .inl rfl
  · rintro (rfl | ⟨e, he, rfl⟩)
    · exact .inr rfl
    · by_cases hsame : e.requestId = r.requestId
      · exact .inr hsame
      · exact .inl ⟨e, ⟨he, hsame⟩, rfl⟩

lemma mem_removeRequest (removed id : String) :
    id ∈ (removeRequest requests removed).map InFlightRequest.requestId ↔
      id ∈ requests.map InFlightRequest.requestId ∧ id ≠ removed := by
  simp only [removeRequest, mem_map, mem_filter, decide_eq_true_eq]
  constructor
  · rintro ⟨e, ⟨he, hne⟩, rfl⟩
    exact ⟨⟨e, he, rfl⟩, hne⟩
  · rintro ⟨⟨e, he, rfl⟩, hne⟩
    exact ⟨e, ⟨he, hne⟩, rfl⟩

lemma mem_cancelRequest {cancelled : String} (h : cancelRequest requests cancelled = some requests')
    (id : String) : id ∈ requests'.map InFlightRequest.requestId ↔
      id ∈ requests.map InFlightRequest.requestId ∧ id ≠ cancelled := by
  unfold cancelRequest at h
  split_ifs at h with hany
  · cases h
    exact mem_removeRequest cancelled id
  cases h
  refine ⟨fun hid => ⟨hid, ?_⟩, And.left⟩
  rintro rfl
  obtain ⟨e, he, hid⟩ := mem_map.mp hid
  exact hany (any_eq_true.mpr ⟨e, he, decide_eq_true hid⟩)

lemma good_move_iff (hgood : Good p) (hc : p.calls[i]? = some c)
    (hmoves : Moves p.shared c input requests' c') : Good ⟨requests', p.calls.set i c'⟩ ↔
      (c.phase.inFlight = true → c'.phase = .over →
        (input = .untrack ↔ ¬ Another p i c.requestId)) := by
  -- the ids in flight before and after are those of the other calls and that of this one
  have hbefore : ∀ id, id ∈ p.shared.map InFlightRequest.requestId ↔ InFlight id c ∨
      Another p i id :=
    fun id => (hgood id).trans (exists_mem_iff hc)
  have hafter : ∀ id, (∃ d ∈ p.calls.set i c', InFlight id d) ↔ InFlight id c' ∨ Another p i id :=
    fun id => exists_mem_set_iff hc c'
  unfold Good
  simp only [hafter]
  cases hmoves with
  | quiet same goesOn =>
    refine iff_of_true (fun id => ?_) fun hflight hover => absurd hover (goesOn hflight)
    rw [hbefore, same]
  | track info before =>
    refine iff_of_true (fun id => ?_) fun hflight => ?_
    · rw [mem_trackRequest, hbefore, or_iff_right (not_inFlight before)]
      refine or_congr_left ⟨?_, ?_⟩
      · rintro rfl
        exact ⟨rfl, rfl⟩
      · exact fun hflight => hflight.2.symm
    · rw [before] at hflight
      cases hflight
  | remove before untrack =>
    simp only [mem_removeRequest, hbefore,
      or_iff_right (not_inFlight (c := { c with phase := .over }) rfl)]
    simp only [untrack, true_iff, before, forall_const]
    constructor
    · intro hall hanother
      exact ((hall c.requestId).mpr hanother).2 rfl
    · intro hnone id
      constructor
      · rintro ⟨⟨-, rfl⟩ | hanother, hne⟩
        · exact absurd rfl hne
        · exact hanother
      · intro hanother
        exact ⟨.inr hanother, fun hid => hnone (hid ▸ hanother)⟩
  | leave before leaves =>
    simp only [hbefore, or_iff_right (not_inFlight (c := { c with phase := .over }) rfl)]
    simp only [leaves, false_iff, not_not, before, forall_const]
    constructor
    · exact fun hall => (hall c.requestId).mp (.inl ⟨before, rfl⟩)
    · intro hanother id
      refine ⟨?_, .inr⟩
      rintro (⟨-, rfl⟩ | hother)
      · exact hanother
      · exact hother

lemma good_step_iff (hgood : Good p) (h : (system decode).step p event = some q) :
    Good q ↔ Careful decode p event := by
  cases event with
  | arrive args =>
    cases h
    refine iff_of_true (fun id => ?_) trivial
    rw [hgood id]
    simp only [mem_append, mem_singleton, or_and_right, exists_or, exists_eq_left]
    exact (or_iff_left (not_inFlight rfl)).symm
  | move i input =>
    obtain ⟨c, requests', c', hc, hadvance, rfl⟩ := step_move.mp h
    rw [good_move_iff hgood hc (advance_cases hadvance)]
    refine ⟨fun hcareful d requests d' hd hadvance' => ?_, fun hcareful =>
      hcareful c requests' c' hc hadvance⟩
    obtain rfl := Option.some.inj (hc.symm.trans hd)
    cases hadvance.symm.trans hadvance'
    exact hcareful
  | env id =>
    obtain ⟨requests', hcancel, rfl⟩ := step_env.mp h
    simp only [Good, mem_cancelRequest hcancel]
    constructor
    · intro hall c hc hflight
      exact ((hall id).mpr ⟨c, hc, hflight⟩).2 rfl
    · intro hnone id'
      rw [hgood id']
      refine ⟨And.left, fun hflight => ⟨hflight, ?_⟩⟩
      rintro rfl
      obtain ⟨c, hc, hflight⟩ := hflight
      exact hnone c hc hflight

lemma careful_of_none (h : (system decode).step p event = none) : Careful decode p event := by
  cases event with
  | arrive args => trivial
  | move i input =>
    intro c requests c' hc hadvance
    have hstep : (system decode).step p (.move i input) = some ⟨requests, p.calls.set i c'⟩ :=
      step_move.mpr ⟨c, requests, c', hc, hadvance, rfl⟩
    rw [h] at hstep
    cases hstep
  | env id => cases h

end

/-- **The table of tracked requests** has the ids in flight exactly if every step is careful. -/
theorem tracked_iff (decode : Bytes → Except String TunnelResponse)
    (events : List (Event Args Input String)) : Stays (system decode).step Good init events ↔
      Along (system decode).step (Careful decode) init events := by
  have hgood : Good init := fun id => by simp [init]
  exact stays_iff_along_of_invariant careful_of_none (fun _ _ => trivial)
    (fun _ hgood h => good_step_iff hgood h) trivial hgood

def writeFails : List (Event Args Input String) :=
  [.arrive ⟨"r", ""⟩, .move 0 (.found (some ⟨1, "ns", 7⟩)), .move 0 (.opened true), .move 0 .track,
    .move 0 (.serialized true), .move 0 (.written false)]

/-- **A request that cannot be written stays in the table.** -/
theorem entry_left : (∃ p, run (system Body.someDecode).step init writeFails = some p ∧
      p.calls = [⟨"r", "", .over⟩] ∧ p.shared = [⟨"r", 1, "ns", 7⟩]) ∧
    ¬ Stays (system Body.someDecode).step Good init writeFails := by
  have hrun : run (system Body.someDecode).step init writeFails =
      some ⟨[⟨"r", 1, "ns", 7⟩], [⟨"r", "", .over⟩]⟩ := rfl
  refine ⟨⟨_, hrun, rfl, rfl⟩, fun hstays => ?_⟩
  have hgood := hstays 6 _ hrun
  obtain ⟨c, hc, hflight⟩ := (hgood "r").mp (by simp)
  obtain rfl := mem_singleton.mp hc
  exact not_inFlight rfl hflight

end Tokilake.Tunnel.Tracking
