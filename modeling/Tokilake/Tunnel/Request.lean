import Mathlib.Data.List.TakeDrop
import Tokilake.Core.TunnelStream
import Tokilake.Smux.Session
import Tokilake.Tunnel.Codec

/-! # The request on the stream

`Roundtrip::call` passes the request to one `write`, does not look at how many bytes it has
accepted, and sends no newline.  `serde_json::to_vec` is the parameter `toVec`; all
that matters of it is that a document has no newline.

* `readRequest_waits`, `readMessage_waits`: without a newline both readers wait;
* `request_unread`: so no request arrives;
* `no_newline_sent`: the bytes of one request, with nothing behind them. -/

namespace Tokilake.Tunnel.Request

open Lib.Lines Lib.Bytes Tunnel.Schema Tunnel.Codec List
open Smux.Wire (maxPayloadSize)
open Smux.Session (Config Stream writeSize_le)
open Core.TunnelStream (IOErr newline messages)

abbrev Bytes := List UInt8

variable (toVec : TunnelRequest → Bytes)

/-- What is on the stream once `write` has accepted so many bytes. -/
def sent (r : TunnelRequest) (accepted : ℕ) : Bytes := (toVec r).take accepted

/-! ### Waiting for a newline -/

lemma readRequest_waits {fromStr : String → Except String TunnelRequest} {reads : List Bytes}
    (hline : newline ∉ reads.flatten) : (readRequest fromStr ⟨[], reads, .none⟩).1 = .waiting := by
  have htexts : texts ⟨[], reads, .none⟩ = [] := by
    have hlines : Reader.lines newline (⟨[], reads, .none⟩ : Source) = [] := by
      rw [lines_eq_nil_iff, takeLine_eq_none_iff]
      exact hline
    simp [texts, hlines]
  rw [readRequest]
  rcases readLine_cases (parsed fromStr) (parsed fromStr) ⟨[], reads, .none⟩ with
    ⟨text, r', h, -⟩ | ⟨-, h⟩
  · rw [htexts] at h
    cases h
  · rw [h]
    rfl

lemma readMessage_waits {τ : Type} {unmarshal : Bytes → Except String τ} {reads : List Bytes}
    (hline : newline ∉ reads.flatten) (ending : IOErr) :
    (Core.TunnelStream.readMessage unmarshal ⟨[], reads, ending⟩).1 = .error ending := by
  have hnone : messages unmarshal ⟨[], reads, ending⟩ = [] := by
    have hlines : Reader.lines newline (⟨[], reads, ending⟩ : Reader UInt8 IOErr) = [] := by
      rw [lines_eq_nil_iff, takeLine_eq_none_iff]
      exact hline
    simp [messages, hlines]
  rcases Core.TunnelStream.readMessage_cases unmarshal ⟨[], reads, ending⟩
    with ⟨-, h⟩ | ⟨_, _, h, -⟩ | ⟨_, _, h, -⟩
  · exact h
  · rw [hnone] at h
    cases h
  · rw [hnone] at h
    cases h

/-! ### Requests -/

variable (unmarshal : Bytes → Except String TunnelRequest)
  (fromStr : String → Except String TunnelRequest)

/-- The encoding is on the stream as one line, and both readers return a request. -/
structure Arrives (r : TunnelRequest) (bytes : Bytes) : Prop where
  line : bytes = toVec r ++ [newline]
  go : ∀ reads : List Bytes, reads.flatten = bytes →
    ∃ s, ∀ ending, (Core.TunnelStream.readMessage unmarshal ⟨[], reads, ending⟩).1 = .ok s
  rust : ∀ reads : List Bytes, reads.flatten = bytes →
    ∃ s, (readRequest fromStr ⟨[], reads, .none⟩).1 = .message s

/-- **No request arrives**: there is no newline on the stream, and both readers wait. -/
theorem request_unread (r : TunnelRequest) (hvec : newline ∉ toVec r) (accepted : ℕ) :
    (sent toVec r accepted = toVec r ↔ (toVec r).length ≤ accepted) ∧
    (∀ (cfg : Config) (st : Stream), st.writeSize cfg (toVec r).length = some accepted →
      maxPayloadSize < (toVec r).length → sent toVec r accepted ≠ toVec r) ∧
    newline ∉ sent toVec r accepted ∧
    (∀ reads : List Bytes, reads.flatten = sent toVec r accepted → ∀ ending,
      (Core.TunnelStream.readMessage unmarshal ⟨[], reads, ending⟩).1 = .error ending) ∧
    (∀ reads : List Bytes, reads.flatten = sent toVec r accepted →
      (readRequest fromStr ⟨[], reads, .none⟩).1 = .waiting) ∧
    (Arrives toVec unmarshal fromStr r (sent toVec r accepted) ↔ False) := by
  have hline : newline ∉ sent toVec r accepted := fun h => hvec (mem_of_mem_take h)
  have hall : sent toVec r accepted = toVec r ↔ (toVec r).length ≤ accepted := take_eq_self_iff _
  refine ⟨hall, fun cfg st hwrite hlong heq => ?_, hline, fun reads hreads ending => ?_,
    fun reads hreads => ?_, iff_false_intro fun harrives => ?_⟩
  · have hle := writeSize_le hwrite
    have hlen := hall.mp heq
    omega
  · exact readMessage_waits (by rwa [hreads]) ending
  · exact readRequest_waits (by rwa [hreads])
  · rw [harrives.line] at hline
    exact hline (by simp)

def listModels : TunnelRequest :=
  { requestId := "r", routeKind := "models", method := "GET", path := "/v1/models" }

/-- The document of `listModels`, for every request. -/
def document (_ : TunnelRequest) : Bytes :=
  ascii ("\x7b\"request_id\":\"r\",\"route_kind\":\"models\",\"method\":\"GET\"," ++
    "\"path\":\"/v1/models\",\"model\":\"\",\"headers\":\x7b\x7d,\"is_stream\":false," ++
    "\"body\":[]\x7d")

lemma newline_not_mem_document (r : TunnelRequest) : newline ∉ document r := by
  unfold document
  decide +kernel

/-- It is short enough for one frame, and is not read all the same. -/
theorem request_unread_listModels : sent document listModels 65535 = document listModels ∧
    (Core.TunnelStream.readMessage (fun _ => .ok listModels)
      ⟨[], [sent document listModels 65535], .eof⟩).1 = .error .eof ∧
    (readRequest (fun _ => .ok listModels) ⟨[], [sent document listModels 65535], .none⟩).1 =
      .waiting := by
  obtain ⟨hall, -, -, hgo, hrust, -⟩ := request_unread document (fun _ => .ok listModels)
    (fun _ => .ok listModels) listModels (newline_not_mem_document _) 65535
  exact ⟨hall.mpr (by decide +kernel), hgo [_] (by simp) .eof, hrust [_] (by simp)⟩

/-- The bytes on the stream are the document and nothing behind it, and the reader waits. -/
theorem no_newline_sent :
    sent document listModels 65535 = document listModels ∧
    (readRequest (fun _ => .ok listModels) ⟨[], [sent document listModels 65535], .none⟩).1 =
      .waiting ∧
    ¬ Arrives document (fun _ => .ok listModels) (fun _ => .ok listModels) listModels
      (sent document listModels 65535) := by
  have hline : newline ∉ sent document listModels 65535 :=
    fun h => newline_not_mem_document _ (mem_of_mem_take h)
  have hwaits : (readRequest (fun _ => .ok listModels)
      ⟨[], [sent document listModels 65535], .none⟩).1 = .waiting :=
    readRequest_waits (by simpa using hline)
  refine ⟨by decide +kernel, hwaits, fun harrives => ?_⟩
  obtain ⟨s, hs⟩ := harrives.rust [sent document listModels 65535] (by simp)
  rw [hwaits] at hs
  cases hs

end Tokilake.Tunnel.Request
