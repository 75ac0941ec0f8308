import Tokilake.Core.TunnelStream

/-! # A response over the Rust tunnel

`Roundtrip::call` reads up to the first frame and hands the bytes read ahead to `pump_response`,
which looks for lines only after a read of its own.  `serde_json` is the decoder of a line;
cancellation is not modelled here.

* `pumpResponse_eq`: what the pump delivers of the frames. -/

namespace Tokilake.Tunnel.Roundtrip

open Lib.Lines List
open Core.TunnelStream (ErrorMessage newline)

abbrev Bytes := List UInt8

structure TunnelResponse where
  requestId : String
  statusCode : UInt16 := 0
  headers : List (String × String) := []
  bodyChunk : Bytes := []
  eof : Bool := false
  error : Option ErrorMessage := none
  deriving DecidableEq

structure TunnelStreamError where
  statusCode : UInt16
  code : String
  message : String
  errorType : String
  deriving DecidableEq

def TunnelStreamError.fromErrorMessage (err : ErrorMessage) : TunnelStreamError where
  statusCode := 502
  code := if err.code = "" then "tokiame_stream_error" else err.code
  message := if err.message = "" then "tokiame stream error" else err.message
  errorType := "upstream_error"

inductive TunnelError
  | protocol (message : String)
  | transport (text : String)
  | serialization (text : String)
  deriving DecidableEq

/-! ### The first frame -/

def maxBuffer : ℕ := 16 * 1024 * 1024

def tooLarge : TunnelError :=
  .protocol "response frame too large (potential backpressure/OOM protection)"

/-- It waits for a read, it fails, or it has a frame and leaves the rest. -/
inductive First
  | waiting
  | failed (err : TunnelError)
  | response (resp : TunnelResponse) (buffer : Bytes) (reads : List (Except String Bytes))

lemma splitLines_no_newline {bs : Bytes} (h : newline ∉ bs) : splitLines newline bs = ([], bs) :=
  splitLines_of_takeLine_none (takeLine_eq_none_iff.mpr h)

variable (decode : Bytes → Except String TunnelResponse)

def readFirst : List (Except String Bytes) → Bytes → First
  | [], _ => .waiting
  | .error err :: _, _ => .failed (.transport err)
  | .ok bs :: reads, buffer =>
    if bs = [] then .failed (.protocol "stream closed before receiving response")
    else if maxBuffer < (buffer ++ bs).length then .failed tooLarge
    else match takeLine newline (buffer ++ bs) with
      | none => readFirst reads (buffer ++ bs)
      | some (line, rest) =>
        -- one line a read: behind an empty line the loop reads on
        if line.dropLast = [] then readFirst reads rest
        else match decode line.dropLast with
          | .error err => .failed (.serialization err)
          | .ok resp => .response resp rest reads

section

variable {decode} {bs buffer : Bytes} {reads : List (Except String Bytes)} (hne : bs ≠ [])

include hne

lemma readFirst_large (hlen : maxBuffer < (buffer ++ bs).length) :
    readFirst decode (.ok bs :: reads) buffer = .failed tooLarge := by
  rw [readFirst, if_neg hne, if_pos hlen]

lemma readFirst_more (hlen : (buffer ++ bs).length ≤ maxBuffer)
    (hline : takeLine newline (buffer ++ bs) = none) :
    readFirst decode (.ok bs :: reads) buffer = readFirst decode reads (buffer ++ bs) := by
  rw [readFirst, if_neg hne, if_neg (not_lt.mpr hlen), hline]

lemma readFirst_line {line left : Bytes} {resp : TunnelResponse}
    (hlen : (buffer ++ bs).length ≤ maxBuffer)
    (hline : takeLine newline (buffer ++ bs) = some (line, left)) (htext : line.dropLast ≠ [])
    (hdec : decode line.dropLast = .ok resp) :
    readFirst decode (.ok bs :: reads) buffer = .response resp left reads := by
  rw [readFirst, if_neg hne, if_neg (not_lt.mpr hlen), hline]
  simp only [if_neg htext, hdec]

end

/-! ### The pump -/

/-- The items sent into the body channel, and whether the pump has returned, which closes it. -/
structure Pump where
  sent : List (Except TunnelStreamError Bytes)
  finished : Bool
  deriving DecidableEq

/-- A chunk is sent unless it is empty. -/
def sendChunk (resp : TunnelResponse) (sent : List (Except TunnelStreamError Bytes)) :
    List (Except TunnelStreamError Bytes) :=
  if resp.bodyChunk = [] then sent else sent ++ [.ok resp.bodyChunk]

/-- The lines in the buffer, one after the other. -/
def pumpLines : List Bytes → List (Except TunnelStreamError Bytes) → Pump
  | [], sent => ⟨sent, false⟩
  | line :: lines, sent =>
    if line.dropLast = [] then pumpLines lines sent
    else match decode line.dropLast with
      -- the `?` leaves the loop, and the `select!` around it drops the error
      | .error _ => ⟨sent, true⟩
      | .ok resp =>
        match resp.error with
        | some err => ⟨sent ++ [.error (.fromErrorMessage err)], true⟩
        | none =>
          if resp.eof then ⟨sendChunk resp sent, true⟩
          else pumpLines lines (sendChunk resp sent)

/-- The loop of `pump_response`: read, then look for lines. It returns `Ok(())` however it ends. -/
def pumpResponse : List (Except String Bytes) → Bytes → List (Except TunnelStreamError Bytes) → Pump
  | [], _, sent => ⟨sent, false⟩
  | .error _ :: _, _, sent => ⟨sent, true⟩
  | .ok bs :: reads, buffer, sent =>
    if bs = [] ∨ maxBuffer < (buffer ++ bs).length then ⟨sent, true⟩
    else match pumpLines decode (splitLines newline (buffer ++ bs)).1 sent with
      | ⟨sent, true⟩ => ⟨sent, true⟩
      | ⟨sent, false⟩ => pumpResponse reads (splitLines newline (buffer ++ bs)).2 sent

inductive Outcome
  | waiting
  | failed (err : TunnelError)
  | response (statusCode : UInt16) (headers : List (String × String)) (body : Pump)
  deriving DecidableEq

def call (reads : List (Except String Bytes)) : Outcome :=
  match readFirst decode reads [] with
  | .waiting => .waiting
  | .failed err => .failed err
  | .response resp buffer reads =>
    match resp.error with
    | some err => .failed (.protocol err.message)
    | none =>
      .response (if resp.statusCode = 0 then 200 else resp.statusCode) resp.headers
        (if resp.eof then ⟨sendChunk resp [], true⟩
          else pumpResponse decode reads buffer (sendChunk resp []))

/-! ### What a worker sends -/

def isBlank (b : UInt8) : Bool := b = 0x20 ∨ b = 0x09 ∨ b = 0x0d

structure Decoder where
  decode : Bytes → Except String TunnelResponse
  blank : ∀ line, line.all isBlank = true → ∃ err, decode line = .error err

/-- A frame of a response as it is sent: the blank lines before it, and its own line. -/
structure Line (D : Decoder) where
  gap : List Bytes := []
  text : Bytes
  response : TunnelResponse
  blank : ∀ l ∈ gap, l.all isBlank = true
  oneLine : newline ∉ text
  decodes : D.decode text = .ok response
  noError : response.error = none

variable {D : Decoder}

def terminated (text : Bytes) : Bytes := text ++ [newline]

def Line.lines (f : Line D) : List Bytes := f.gap.map terminated ++ [terminated f.text]

def endsWithEof : List (Line D) → Prop
  | [] => False
  | f :: fs => if f.response.eof then fs = [] else endsWithEof fs

structure Sent (D : Decoder) where
  header : Line D
  rest : List (Line D)
  atStart : header.gap = []
  ends : endsWithEof (header :: rest)

def Sent.wire (x : Sent D) : Bytes := ((x.header :: x.rest).flatMap Line.lines).flatten

def Sent.body (x : Sent D) : Bytes := (x.header :: x.rest).flatMap fun f => f.response.bodyChunk

structure Segments (wire : Bytes) where
  reads : List Bytes
  flatten : reads.flatten = wire
  sizes : ∀ bs ∈ reads, bs ≠ [] ∧ bs.length ≤ 8192

def Sent.answer (x : Sent D) (body : Pump) : Outcome :=
  .response (if x.header.response.statusCode = 0 then 200 else x.header.response.statusCode)
    x.header.response.headers body

def Sent.Delivered (x : Sent D) (o : Outcome) : Prop :=
  ∃ chunks : List Bytes, chunks.flatten = x.body ∧ o = x.answer ⟨chunks.map .ok, true⟩

/-- The reads before the first that makes the buffer too large; complete lines leave the buffer. -/
def fitting : Bytes → List Bytes → List Bytes
  | _, [] => []
  | buffer, bs :: reads =>
    if maxBuffer < (buffer ++ bs).length then []
    else bs :: fitting (splitLines newline (buffer ++ bs)).2 reads

/-- With `n` bytes there, frame after frame goes through. At one that is incomplete or follows a
line of blanks the channel is closed, and only empty chunks may be left. -/
def AllThrough : List (Line D) → ℕ → Prop
  | [], _ => True
  | f :: fs, n =>
    if f.lines.flatten.length ≤ n ∧ ∀ l ∈ f.gap, l = [] then
      AllThrough fs (n - f.lines.flatten.length)
    else ∀ g ∈ f :: fs, g.response.bodyChunk = []

/-! ### The pump goes through the lines -/

variable {decode} {buffer : Bytes} {reads : List Bytes}
  {sent : List (Except TunnelStreamError Bytes)}

lemma pumpLines_append (first second : List Bytes) (sent : List (Except TunnelStreamError Bytes)) :
    pumpLines decode (first ++ second) sent =
      match pumpLines decode first sent with
      | ⟨sent, true⟩ => ⟨sent, true⟩
      | ⟨sent, false⟩ => pumpLines decode second sent := by
  induction first generalizing sent with
  | nil => rfl
  | cons line first ih =>
    rw [cons_append, pumpLines, pumpLines]
    by_cases hline : line.dropLast = []
    · rw [if_pos hline, if_pos hline, ih]
    rw [if_neg hline, if_neg hline]
    cases decode line.dropLast with
    | error err => rfl
    | ok resp =>
      cases herr : resp.error with
      | some err => simp [herr]
      | none =>
        simp only [herr]
        by_cases heof : resp.eof = true
        · rw [if_pos heof, if_pos heof]
        · rw [if_neg heof, if_neg heof, ih]

/-- The lines of the reads that fit are pumped, and a read that does not fit ends the pump. -/
def pumped (decode : Bytes → Except String TunnelResponse) (buffer : Bytes) (reads : List Bytes)
    (sent : List (Except TunnelStreamError Bytes)) : Pump :=
  let p := pumpLines decode (splitLines newline (buffer ++ (fitting buffer reads).flatten)).1 sent
  ⟨p.sent, p.finished || decide (fitting buffer reads ≠ reads)⟩

lemma pumped_cons {bs : Bytes} (hlen : (buffer ++ bs).length ≤ maxBuffer) :
    pumped decode buffer (bs :: reads) sent =
      match pumpLines decode (splitLines newline (buffer ++ bs)).1 sent with
      | ⟨sent, true⟩ => ⟨sent, true⟩
      | ⟨sent, false⟩ => pumped decode (splitLines newline (buffer ++ bs)).2 reads sent := by
  have hlines : (splitLines newline (buffer ++ (fitting buffer (bs :: reads)).flatten)).1 =
      (splitLines newline (buffer ++ bs)).1 ++
        (splitLines newline ((splitLines newline (buffer ++ bs)).2 ++
          (fitting (splitLines newline (buffer ++ bs)).2 reads).flatten)).1 := by
    rw [fitting, if_neg (by omega), flatten_cons, ← append_assoc, splitLines_append]
  rw [pumped, hlines, pumpLines_append, fitting, if_neg (by omega)]
  rcases pumpLines decode (splitLines newline (buffer ++ bs)).1 sent with ⟨sent', _ | _⟩
  · simp [pumped]
  · simp

lemma pumpResponse_tail (hbuf : newline ∉ buffer) (hne : ∀ bs ∈ reads, bs ≠ []) :
    pumpResponse decode (reads.map .ok) buffer sent = pumped decode buffer reads sent := by
  induction reads generalizing buffer sent with
  | nil => simp [pumpResponse, pumped, fitting, splitLines_no_newline hbuf, pumpLines]
  | cons bs reads ih =>
    rw [map_cons, pumpResponse]
    by_cases hlen : maxBuffer < (buffer ++ bs).length
    · rw [if_pos (.inr hlen), pumped, fitting, if_pos hlen]
      simp [splitLines_no_newline hbuf, pumpLines]
    · rw [if_neg (not_or.mpr ⟨hne bs mem_cons_self, hlen⟩), pumped_cons (not_lt.mp hlen)]
      split
      · rfl
      · exact ih (not_mem_splitLines_tail newline _) fun cs hcs => hne cs (mem_cons_of_mem bs hcs)

/-- The first read is special: the buffer may hold whole lines that were not looked at. -/
lemma pumpResponse_eq (hfirst : ∀ bs ∈ reads.head?, (buffer ++ bs).length ≤ maxBuffer)
    (hne : ∀ bs ∈ reads, bs ≠ []) (hreads : reads ≠ []) :
    pumpResponse decode (reads.map .ok) buffer sent = pumped decode buffer reads sent := by
  cases reads with
  | nil => exact absurd rfl hreads
  | cons bs reads =>
    have hlen : (buffer ++ bs).length ≤ maxBuffer := hfirst bs rfl
    rw [map_cons, pumpResponse, if_neg (not_or.mpr ⟨hne bs mem_cons_self, not_lt.mpr hlen⟩),
      pumped_cons hlen]
    split
    · rfl
    · exact pumpResponse_tail (not_mem_splitLines_tail newline _)
        fun cs hcs => hne cs (mem_cons_of_mem bs hcs)

end Tokilake.Tunnel.Roundtrip
