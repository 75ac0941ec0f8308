import Tokilake.Core.Roundtrip

/-! # The local response through the tunnel

`writeHTTPResponse` sends a header frame, a frame for each piece of the body and one that says how
it has ended.  A body is the list of what its reads return.

* `body_delivered`: the gateway gets the body, however it is cut. -/

namespace Tokilake.Worker.HttpResponse

open Lib.Lines Lib.Bytes Core.TunnelStream Core.Roundtrip List

/-! ### The worker -/

inductive ReadErr
  | eof
  | failed (text : String)
  deriving DecidableEq

abbrev Read := List UInt8 × Option ReadErr

structure Response where
  statusCode : ℤ
  header : List (String × List String)
  body : List Read

def flattenHTTPHeaders (header : List (String × List String)) : List (String × String) :=
  (header.filter fun entry => entry.2 ≠ []).map fun entry =>
    (entry.1, String.intercalate ", " entry.2)

/-- What was written, and how many writes will succeed, `none` if all will. -/
structure Stream where
  written : List UInt8 := []
  room : Option ℕ := none

inductive Outcome
  | done
  | reading
  | noResponse
  | writeFailed
  | readFailed (text : String)
  deriving DecidableEq

section

variable (marshal : TunnelResponse → List UInt8) (requestId : String)

def Stream.write (stream : Stream) (data : List UInt8) : Option Stream :=
  match stream.room with
  | none => some { stream with written := stream.written ++ data }
  | some 0 => none
  | some (n + 1) => some { written := stream.written ++ data, room := some n }

def writeResponse (stream : Stream) (frame : TunnelResponse) : Option Stream :=
  stream.write (marshal frame ++ [newline])

def chunkFrame (bytes : List UInt8) : TunnelResponse := ⟨requestId, 0, [], bytes, false, none⟩

def eofFrame : TunnelResponse := ⟨requestId, 0, [], [], true, none⟩

def errorFrame (text : String) : TunnelResponse :=
  ⟨requestId, 0, [], [], false, some ⟨"read_local_response_failed", text⟩⟩

def writeBody : List Read → Stream → Stream × Outcome
  | [], stream => (stream, .reading)
  | (bytes, err) :: reads, stream =>
    match if bytes = [] then some stream
        else writeResponse marshal stream (chunkFrame requestId bytes) with
    | none => (stream, .writeFailed)
    | some stream =>
      match err with
      | some .eof =>
        match writeResponse marshal stream (eofFrame requestId) with
        | none => (stream, .writeFailed)
        | some stream => (stream, .done)
      -- the result of this write is not looked at
      | some (.failed text) =>
        ((writeResponse marshal stream (errorFrame requestId text)).getD stream, .readFailed text)
      | none => writeBody reads stream

def headerFrameOf (response : Response) : TunnelResponse :=
  ⟨requestId, response.statusCode, flattenHTTPHeaders response.header, [], false, none⟩

def writeHTTPResponse (response : Option Response) (stream : Stream) : Stream × Outcome :=
  match response with
  | none => (stream, .noResponse)
  | some response =>
    match writeResponse marshal stream (headerFrameOf requestId response) with
    | none => (stream, .writeFailed)
    | some stream => writeBody marshal requestId response.body stream

end

/-! ### The gateway -/

structure TunnelledResponse where
  statusCode : ℤ
  header : List (String × String)
  body : Pipe
  deriving DecidableEq

inductive RequestErr
  | header (err : IOErr)
  | request (message : String)
  deriving DecidableEq

def readTunnelResponse (unmarshal : List UInt8 → Except String TunnelResponse)
    (r : Reader UInt8 IOErr) : Except RequestErr TunnelledResponse :=
  match readMessage unmarshal r with
  | (.error err, _) => .error (.header err)
  | (.ok frame, r) =>
    match frame.error with
    | some err => .error (.request err.message)
    | none => .ok
      { statusCode := if frame.statusCode = 0 then 502 else frame.statusCode
        header := frame.headers
        body := pumpTunnelBody unmarshal frame r .fresh }

/-! ### The frames of a body -/

variable {marshal : TunnelResponse → List UInt8}
  {unmarshal : List UInt8 → Except String TunnelResponse} {requestId : String}

def bodyBytes : List Read → List UInt8
  | [] => []
  | (bytes, some _) :: _ => bytes
  | (bytes, none) :: reads => bytes ++ bodyBytes reads

def bodyEnd (reads : List Read) : Option ReadErr := reads.findSome? Prod.snd

def lastFrame (requestId : String) : ReadErr → TunnelResponse
  | .eof => eofFrame requestId
  | .failed text => errorFrame requestId text

@[simp] def pieceFrames (requestId : String) (bytes : List UInt8) : List TunnelResponse :=
  if bytes = [] then [] else [chunkFrame requestId bytes]

@[simp] def bodyFrames (requestId : String) : List Read → List TunnelResponse
  | [] => []
  | (bytes, some err) :: _ => pieceFrames requestId bytes ++ [lastFrame requestId err]
  | (bytes, none) :: reads => pieceFrames requestId bytes ++ bodyFrames requestId reads

def frames (requestId : String) (response : Response) : List TunnelResponse :=
  headerFrameOf requestId response :: bodyFrames requestId response.body

def wire (marshal : TunnelResponse → List UInt8) (fs : List TunnelResponse) : List UInt8 :=
  (fs.map fun frame => marshal frame ++ [newline]).flatten

@[simp] lemma writeResponse_reliable (written : List UInt8) (frame : TunnelResponse) :
    writeResponse marshal ⟨written, none⟩ frame =
      some ⟨written ++ (marshal frame ++ [newline]), none⟩ := rfl

lemma writeBody_spec (reads : List Read) (written : List UInt8) :
    (writeBody marshal requestId reads ⟨written, none⟩).1 =
      ⟨written ++ wire marshal (bodyFrames requestId reads), none⟩ := by
  induction reads generalizing written with
  | nil => simp [writeBody, wire]
  | cons read reads ih =>
    obtain ⟨bytes, err⟩ := read
    have hchunk : (if bytes = [] then some (⟨written, none⟩ : Stream)
        else writeResponse marshal ⟨written, none⟩ (chunkFrame requestId bytes)) =
          some ⟨written ++ wire marshal (pieceFrames requestId bytes), none⟩ := by
      by_cases hb : bytes = [] <;> simp [hb, wire]
    rw [writeBody, hchunk]
    rcases err with _ | _ | text
    · simp [ih, wire]
    all_goals simp [lastFrame, wire]

lemma writeHTTPResponse_spec (response : Response) :
    (writeHTTPResponse marshal requestId (some response) {}).1.written =
      wire marshal (frames requestId response) := by
  simp only [writeHTTPResponse, writeResponse_reliable, writeBody_spec]
  simp [frames, wire]

/-! ### The frames at the other end -/

/-- The text of a frame: an object without a raw newline, from which the frame can be read again. -/
structure Encodes (marshal : TunnelResponse → List UInt8)
    (unmarshal : List UInt8 → Except String TunnelResponse) (frame : TunnelResponse) : Prop where
  object : ∃ text, marshal frame = 0x7b :: text ++ [0x7d]
  line : newline ∉ marshal frame
  roundTrip : unmarshal (marshal frame) = .ok frame

lemma Encodes.trimSpace {frame : TunnelResponse} (h : Encodes marshal unmarshal frame) :
    trimSpace (marshal frame ++ [newline]) = marshal frame := by
  obtain ⟨text, htext⟩ := h.object
  rw [htext]
  simpa [newline] using trimSpace_object text

lemma Encodes.ne_nil {frame : TunnelResponse} (h : Encodes marshal unmarshal frame) :
    marshal frame ≠ [] := by
  obtain ⟨text, htext⟩ := h.object
  simp [htext]

lemma messages_wire {fs : List TunnelResponse} (h : ∀ frame ∈ fs, Encodes marshal unmarshal frame)
    {r : Reader UInt8 IOErr} (hr : r.pending = wire marshal fs) :
    messages unmarshal r = fs.map .ok := by
  have hlines : r.lines newline = fs.map fun frame => marshal frame ++ [newline] := by
    have hsplit : splitLines newline r.pending =
        (fs.map fun frame => marshal frame ++ [newline], []) := by
      rw [hr]
      refine splitLines_flatten fun l hl => ?_
      obtain ⟨frame, hframe, rfl⟩ := mem_map.mp hl
      exact ⟨marshal frame, (h frame hframe).line, rfl⟩
    rw [Reader.lines, hsplit]
  have htrim : (r.lines newline).map trimSpace = fs.map marshal := by
    rw [hlines, map_map]
    exact map_congr_left fun frame hframe => (h frame hframe).trimSpace
  have hkeep : (fs.map marshal).filter (· ≠ []) = fs.map marshal := by
    rw [filter_eq_self]
    rintro line hline
    obtain ⟨frame, hframe, rfl⟩ := mem_map.mp hline
    simpa using (h frame hframe).ne_nil
  rw [messages, htrim, hkeep, map_map]
  exact map_congr_left fun frame hframe => (h frame hframe).roundTrip

lemma decodedChunks_pieceFrames (bytes : List UInt8) (ms : List (Except String TunnelResponse)) :
    (decodedChunks ((pieceFrames requestId bytes).map .ok ++ ms)).flatten =
      bytes ++ (decodedChunks ms).flatten := by
  by_cases hb : bytes = []
  · simp [hb]
  · simp [hb, chunkFrame, decodedChunks, chunkOf]

lemma decodedChunks_bodyFrames {reads : List Read} :
    (decodedChunks ((bodyFrames requestId reads).map .ok)).flatten = bodyBytes reads := by
  induction reads with
  | nil => rfl
  | cons read reads ih =>
    rcases read with ⟨bytes, _ | err⟩
    · rw [bodyFrames, map_append, decodedChunks_pieceFrames, ih, bodyBytes]
    have hlast : (decodedChunks [.ok (lastFrame requestId err)]).flatten = [] := by
      cases err <;> rfl
    rw [bodyFrames, map_append, decodedChunks_pieceFrames, bodyBytes]
    simp [hlast]

def endingOf : ReadErr → Ending
  | .eof => .eofFrame
  | .failed text => .errorFrame ⟨"read_local_response_failed", text⟩

lemma ended_pieceFrames (transport : IOErr) (bytes : List UInt8)
    (ms : List (Except String TunnelResponse)) :
    ended transport ((pieceFrames requestId bytes).map .ok ++ ms) = ended transport ms := by
  by_cases hb : bytes = []
  · simp [hb]
  · simp [hb, chunkFrame]

lemma ended_bodyFrames {reads : List Read} {err : ReadErr} (hend : bodyEnd reads = some err)
    (transport : IOErr) :
    ended transport ((bodyFrames requestId reads).map .ok) = endingOf err := by
  induction reads with
  | nil => cases hend
  | cons read reads ih =>
    rcases read with ⟨bytes, _ | readErr⟩
    · rw [bodyFrames, map_append, ended_pieceFrames]
      exact ih (by simpa [bodyEnd] using hend)
    · obtain rfl : readErr = err := by simpa [bodyEnd] using hend
      rw [bodyFrames, map_append, ended_pieceFrames]
      cases readErr <;> rfl

/-! ### End to end -/

/-- **A local response through the tunnel**: its bytes, and `io.EOF` only if it ended so. -/
theorem body_delivered (marshal : TunnelResponse → List UInt8)
    (unmarshal : List UInt8 → Except String TunnelResponse) (requestId : String)
    (response : Response) (err : ReadErr) (hend : bodyEnd response.body = some err)
    (hencodes : ∀ frame ∈ frames requestId response, Encodes marshal unmarshal frame)
    (r : Reader UInt8 IOErr)
    (hr : r.pending = (writeHTTPResponse marshal requestId (some response) {}).1.written) :
    ∃ tunnelled, readTunnelResponse unmarshal r = .ok tunnelled ∧
      tunnelled.body.chunks.flatten = bodyBytes response.body ∧
      (err = .eof → tunnelled.body.ending = some .eof) ∧
      (err ≠ .eof → ∃ other, tunnelled.body.ending = some other ∧ other ≠ .eof) := by
  have hmessages := messages_wire hencodes (hr.trans (writeHTTPResponse_spec response))
  rcases readMessage_cases unmarshal r with ⟨hnone, -⟩ | ⟨_, _, hbad, -⟩ | ⟨m, r', hm, hread, -, -⟩
  · rw [hnone] at hmessages
    cases hmessages
  · rw [hbad] at hmessages
    cases hmessages
  rw [hm] at hmessages
  obtain ⟨hheader, hrest⟩ := cons.inj hmessages
  obtain rfl := Except.ok.inj hheader
  -- the pump behind the header frame
  have hpump := pump_spec unmarshal (headerFrameOf requestId response) r'
  have hchunks : bodyChunks unmarshal (headerFrameOf requestId response) r' =
      decodedChunks ((bodyFrames requestId response.body).map .ok) := by
    rw [bodyChunks, hrest]
    rfl
  have hended : bodyEnded unmarshal (headerFrameOf requestId response) r' = endingOf err := by
    rw [bodyEnded, hrest]
    exact ended_bodyFrames hend _
  rw [hchunks, hended] at hpump
  refine ⟨_, by rw [readTunnelResponse, hread]; rfl, ?_, ?_, ?_⟩
  · rw [hpump]
    exact decodedChunks_bodyFrames
  · rintro rfl
    rw [hpump]
    rfl
  · intro hne
    rw [hpump]
    cases err with
    | eof => exact absurd rfl hne
    | failed text => exact ⟨_, rfl, by simp [endingOf]⟩

def sample : Response := ⟨200, [], [([0x68, 0x69], some .eof)]⟩

def sampleText (frame : TunnelResponse) : List UInt8 :=
  if frame.eof then ascii "\x7b\"request_id\":\"r\",\"eof\":true\x7d"
  else if frame.bodyChunk = [] then ascii "\x7b\"request_id\":\"r\",\"status_code\":200\x7d"
  else ascii "\x7b\"request_id\":\"r\",\"body_chunk\":\"aGk=\"\x7d"

def sampleFrame (line : List UInt8) : Except String TunnelResponse :=
  match (frames "r" sample).find? fun frame => sampleText frame = line with
  | some frame => .ok frame
  | none => .error "unexpected end of JSON input"

/-- The response over a stream that delivers byte by byte. -/
theorem body_delivered_sample : ∃ tunnelled, readTunnelResponse sampleFrame
        ⟨[], (writeHTTPResponse sampleText "r" (some sample) {}).1.written.map ([·]), .eof⟩ =
          .ok tunnelled ∧
      tunnelled.body.chunks.flatten = [0x68, 0x69] ∧ tunnelled.body.ending = some .eof := by
  have hencodes : ∀ frame ∈ frames "r" sample, Encodes sampleText sampleFrame frame := by
    have hframes : frames "r" sample =
        [headerFrameOf "r" sample, chunkFrame "r" [0x68, 0x69], eofFrame "r"] := rfl
    intro frame hframe
    simp only [hframes, mem_cons, not_mem_nil, or_false] at hframe
    rcases hframe with rfl | rfl | rfl
    · exact ⟨⟨ascii "\"request_id\":\"r\",\"status_code\":200", by decide⟩, by decide, by decide⟩
    · exact ⟨⟨ascii "\"request_id\":\"r\",\"body_chunk\":\"aGk=\"", by decide⟩, by decide,
        by decide⟩
    · exact ⟨⟨ascii "\"request_id\":\"r\",\"eof\":true", by decide⟩, by decide, by decide⟩
  have hreads : ∀ bytes : List UInt8, (bytes.map ([·])).flatten = bytes := by
    intro bytes
    rw [← flatMap_def, flatMap_singleton']
  obtain ⟨tunnelled, h, hbytes, heof, -⟩ :=
    body_delivered sampleText sampleFrame "r" sample .eof rfl
    hencodes ⟨[], _, .eof⟩ (hreads _)
  exact ⟨tunnelled, h, hbytes, heof rfl⟩

end Tokilake.Worker.HttpResponse
