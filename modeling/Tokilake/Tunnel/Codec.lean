import Tokilake.Lib.Text
import Tokilake.Lib.Utf8
import Tokilake.Tunnel.ResponseSchema

/-! # The codecs of the Rust side

A line is read as UTF-8 with losses and trimmed, and blank lines are skipped.  `serde_json` is the
parameter `fromStr`.

* `readLine_cases`: a call returns the first text that is not blank, or what the stream ends with;
* `readMessage_panics_iff`: a control message panics exactly if a character lies across byte 200;
* `requests_and_responses_read`: requests and responses are read as they were written. -/

namespace Tokilake.Tunnel.Codec

open Lib Lib.Lines Lib.Utf8 List Text
open Core.TunnelStream (newline)
open Tunnel.Schema (TunnelRequest)
open Tunnel.ResponseSchema (TunnelResponse)

inductive Outcome (τ : Type)
  | message (m : τ)
  | failed (err : String)
  | ended
  | waiting
  | panicked
  deriving DecidableEq

/-- What is behind the reads: the end of the stream, an error, or nothing as yet. -/
inductive Ending
  | eof
  | failed (err : String)
  | none

/-- The buffer of a codec and the reads before it, each of some bytes. -/
abbrev Source := Reader UInt8 Ending

variable {τ : Type}

/-! ### Reading -/

def trimmed (line : Bytes) : String := trimSpace (String.ofList (lossy line))

variable (fromStr : String → Except String τ)

def parsed (text : String) : Outcome τ :=
  match fromStr text with
  | .ok m => .message m
  | .error err => .failed err

/-- Without a newline: at the end the bytes are the last line, and else they stay. -/
def atEnd (rest : String → Outcome τ) (left : Bytes) : Ending → Outcome τ × Source
  | .eof => (if trimmed left = "" then .ended else rest (trimmed left), ⟨[], [], .eof⟩)
  | .failed err => (.failed err, ⟨left, [], .failed err⟩)
  | .none => (.waiting, ⟨left, [], .none⟩)

def readLine (line rest : String → Outcome τ) (r : Source) : Outcome τ × Source :=
  match _ : readBytes newline r with
  | (.ok bytes, r') =>
    if trimmed bytes.dropLast = "" then readLine line rest r'
    else (line (trimmed bytes.dropLast), r')
  | (.error (left, ending), _) => atEnd rest left ending
termination_by r.pending.length
decreasing_by exact readBytes_lt ‹_›

def preview (text : String) : Option (List Char) :=
  if 200 < size text.toList then sliceTo 200 text.toList else some text.toList

def readMessage : Source → Outcome τ × Source :=
  readLine (fun text => if preview text = none then .panicked else parsed fromStr text)
    (parsed fromStr)

def readRequest (fromStr : String → Except String TunnelRequest) :
    Source → Outcome TunnelRequest × Source :=
  readLine (parsed fromStr) (parsed fromStr)

def readResponse (fromStr : String → Except String TunnelResponse) :
    Source → Outcome TunnelResponse × Source :=
  readLine (parsed fromStr) (parsed fromStr)

/-! ### The texts of the lines -/

def texts (r : Source) : List String :=
  ((r.lines newline).map fun l => trimmed l.dropLast).filter (· ≠ "")

def rest (r : Source) : Bytes := (splitLines newline r.pending).2

lemma rest_of_lines {r r' : Source} {l : Bytes} (h : readBytes newline r = (.ok l, r')) :
    rest r' = rest r := by
  rcases hline : takeLine newline r.pending with _ | ⟨l', bytes⟩
  · rw [readBytes_end hline] at h
    cases h
  obtain ⟨r'', hr, hpending, -⟩ := readBytes_line hline
  rw [h] at hr
  cases hr
  rw [rest, rest, hpending, splitLines_of_takeLine hline]

lemma readLine_cases (line last : String → Outcome τ) (r : Source) :
    (∃ text r', texts r = text :: texts r' ∧ readLine line last r = (line text, r') ∧
      r'.ending = r.ending ∧ rest r' = rest r) ∨
    (texts r = [] ∧ readLine line last r = atEnd last (rest r) r.ending) := by
  induction hn : r.pending.length using Nat.strong_induction_on generalizing r with
  | _ n ih =>
    subst hn
    rw [readLine]
    rcases readBytes_cases newline r with ⟨hlines, hread⟩ | ⟨l, r', hlines, hread, hend, hlt⟩
    · have hrest : rest r = r.pending := by
        rw [rest, splitLines_of_takeLine_none (lines_eq_nil_iff.mp hlines)]
      refine .inr ⟨by simp [texts, hlines], ?_⟩
      split
      · next heq => rw [hread] at heq; cases heq
      next heq =>
      rw [hread] at heq
      cases heq
      rw [hrest]
    · have hsame := rest_of_lines hread
      split
      · next heq =>
        rw [hread] at heq
        cases heq
        by_cases hblank : trimmed l.dropLast = ""
        · -- a blank line has no text
          have htexts : texts r = texts r' := by simp [texts, hlines, hblank]
          rw [if_pos hblank, htexts]
          rcases ih _ hlt r' rfl with ⟨text, r'', h, hread', hend', hrest⟩ | ⟨h, hread'⟩
          · exact .inl ⟨text, r'', h, hread', hend'.trans hend, hrest.trans hsame⟩
          · exact .inr ⟨h, by rw [hread', hend, hsame]⟩
        · rw [if_neg hblank]
          exact .inl ⟨_, r', by simp [texts, hlines, hblank], rfl, hend, hsame⟩
      · next heq => rw [hread] at heq; cases heq

/-! ### The preview -/

lemma preview_eq_none_iff (text : String) : preview text = none ↔
    ∃ before c after, text.toList = before ++ c :: after ∧
      size before < 200 ∧ 200 < size before + c.utf8Size := by
  unfold preview
  split_ifs with hlong
  · exact sliceTo_eq_none_iff hlong.le
  refine ⟨nofun, ?_⟩
  rintro ⟨before, c, after, htext, -, hacross⟩
  have hsize : size text.toList = size before + (c.utf8Size + size after) := by simp [htext, size]
  omega

lemma panicked_iff_preview (r : Source) :
    (readMessage fromStr r).1 = .panicked ↔ ∃ text ∈ (texts r).head?, preview text = none := by
  have hparsed : ∀ text, parsed fromStr text ≠ .panicked := by
    intro text
    unfold parsed
    split <;> nofun
  unfold readMessage
  rcases readLine_cases (fun text => if preview text = none then .panicked else parsed fromStr text)
    (parsed fromStr) r with ⟨text, r', htexts, hread, -⟩ | ⟨htexts, hread⟩
  · rw [hread, htexts]
    split_ifs with hnone
    · simp [hnone]
    · simp [hnone, hparsed]
  · rw [hread, htexts]
    simp only [head?_nil, Option.not_mem_none, false_and, exists_false, iff_false]
    cases r.ending with
    | failed err | none => nofun
    | eof =>
      simp only [atEnd]
      split_ifs
      · nofun
      · exact hparsed _

/-- **When reading a control message panics**: a character lies across byte 200. -/
theorem readMessage_panics_iff (fromStr : String → Except String τ) (r : Source) :
    (readMessage fromStr r).1 = .panicked ↔
      ∃ text ∈ (texts r).head?, ∃ before c after, text.toList = before ++ c :: after ∧
        size before < 200 ∧ 200 < size before + c.utf8Size := by
  simp only [panicked_iff_preview, preview_eq_none_iff]

/-! ### Written lines -/

def written (text : List Char) : Bytes := encode text ++ [newline]

lemma isLine_written {text : List Char} (h : '\n' ∉ text) : IsLine newline (written text) := by
  refine ⟨encode text, fun hmem => ?_, rfl⟩
  obtain ⟨c, hc, hbyte⟩ := mem_flatMap.mp hmem
  refine Bytes.newline_not_mem_utf8 (fun hnat => h ?_) hbyte
  rwa [show '\n' = c from (Char.ofNat_toNat c).symm.trans (congrArg Char.ofNat hnat) |>.symm]

lemma trimmed_written (text : List Char) :
    trimmed (written text).dropLast = trimSpace (String.ofList text) := by
  rw [written, dropLast_concat, trimmed, lossy_encode]

lemma texts_written {lines : List (List Char)} (h : ∀ text ∈ lines, '\n' ∉ text)
    {reads : List Bytes} (hreads : reads.flatten = lines.flatMap written) (ending : Ending) :
    texts ⟨[], reads, ending⟩ =
        (lines.map fun text => trimSpace (String.ofList text)).filter (· ≠ "") ∧
      rest ⟨[], reads, ending⟩ = [] := by
  have hsplit : splitLines newline (Reader.pending (⟨[], reads, ending⟩ : Source)) =
      (lines.map written, []) := by
    rw [Reader.pending, nil_append, hreads, flatMap_def]
    refine splitLines_flatten fun l hl => ?_
    obtain ⟨text, htext, rfl⟩ := mem_map.mp hl
    exact isLine_written (h text htext)
  constructor
  · rw [texts, Reader.lines, hsplit, map_map]
    congr 2
    funext text
    exact trimmed_written text
  · rw [rest, hsplit]

def longName : List Char := replicate 199 'a' ++ ['é']

def longLine : Source := ⟨[], [written longName], .eof⟩

/-- The character lies across byte 200. -/
theorem longLine_panics : (readMessage (fun _ => .ok ()) longLine).1 = .panicked := by
  have hletters : ∀ c ∈ longName, isSpace c = false ∧ c ≠ '\n' := by
    intro c hc
    rcases mem_append.mp hc with ha | he
    · rw [eq_of_mem_replicate ha]
      decide
    · rw [mem_singleton.mp he]
      decide
  have htrim : trimSpace (String.ofList longName) = String.ofList longName := by
    refine trimSpace_of_forall fun c hc => ?_
    rw [String.toList_ofList] at hc
    exact (hletters c hc).1
  have hline : ∀ text ∈ [longName], '\n' ∉ text := by simpa using fun h => (hletters '\n' h).2 rfl
  have hreads : [written longName].flatten = [longName].flatMap written := by simp
  obtain ⟨htexts, -⟩ := texts_written hline hreads .eof
  have hne : String.ofList longName ≠ "" := by
    intro h
    have hnil := congrArg String.toList h
    rw [String.toList_ofList] at hnil
    exact append_ne_nil_of_right_ne_nil _ (cons_ne_nil _ _) hnil
  rw [panicked_iff_preview, longLine, htexts]
  refine ⟨String.ofList longName, by simp [htrim, hne], ?_⟩
  rw [preview_eq_none_iff, String.toList_ofList]
  have hwidths : Char.utf8Size 'a' = 1 ∧ Char.utf8Size 'é' = 2 := by decide
  have hsize : size (replicate 199 'a') = 199 := by
    rw [size, map_replicate, hwidths.1, sum_replicate_nat]
  exact ⟨replicate 199 'a', 'é', [], rfl, by omega, by omega⟩

/-! ### Messages of a tunnel stream -/

/-- A message is read from the text it is written as, an object without a newline. -/
structure Serde (text : τ → String) (fromStr : String → Except String τ) (m : τ) : Prop where
  fromStr_text : fromStr (text m) = .ok m
  oneLine : '\n' ∉ (text m).toList
  object : ∃ inner, (text m).toList = '\x7b' :: inner ++ ['\x7d']

inductive Line (τ : Type)
  | message (m : τ)
  | blank (space : List Char) (h : ∀ c ∈ space, isSpace c = true ∧ c ≠ '\n')

def Line.text (text : τ → String) : Line τ → List Char
  | .message m => (text m).toList
  | .blank space _ => space

def Line.message? : Line τ → Option τ
  | .message m => some m
  | .blank _ _ => none

def calls (read : Source → Outcome τ × Source) : ℕ → Source → List (Outcome τ) × Source
  | 0, r => ([], r)
  | n + 1, r => ((read r).1 :: (calls read n (read r).2).1, (calls read n (read r).2).2)

variable {text : τ → String} {fromStr : String → Except String τ}

lemma trimSpace_object {s : String}
    (h : ∃ inner, s.toList = '\x7b' :: inner ++ ['\x7d']) : trimSpace s = s ∧ s ≠ "" := by
  obtain ⟨inner, hs⟩ := h
  constructor
  · rw [trimSpace, hs, cons_append, dropWhile_cons_of_neg (by decide),
      ← cons_append, rdropWhile_concat_neg _ _ _ (by decide), ← hs, String.ofList_toList]
  · rintro rfl
    simp at hs

lemma trimSpace_blank {space : List Char} (h : ∀ c ∈ space, isSpace c = true) :
    trimSpace (String.ofList space) = "" := by
  rw [trimSpace, String.toList_ofList, dropWhile_eq_nil_iff.mpr h]
  rfl

lemma filter_texts {lines : List (Line τ)}
    (h : ∀ m ∈ lines.filterMap Line.message?, Serde text fromStr m) :
    ((lines.map (Line.text text)).map fun cs => trimSpace (String.ofList cs)).filter
      (· ≠ "") = (lines.filterMap Line.message?).map text := by
  induction lines with
  | nil => rfl
  | cons line lines ih =>
    cases line with
    | message m =>
      obtain ⟨htrim, hne⟩ := trimSpace_object (h m (by simp [Line.message?])).object
      have hrest := ih fun m' hm' => h m' (by simp [Line.message?, hm'])
      rw [map_cons, map_cons, Line.text, String.ofList_toList, htrim,
        filter_cons_of_pos (by simpa using hne), hrest]
      rfl
    | blank space hspace =>
      have hrest := ih fun m' hm' => h m' (by simpa [Line.message?] using hm')
      rw [map_cons, map_cons, Line.text, trimSpace_blank fun c hc => (hspace c hc).1,
        filter_cons_of_neg (by simp), hrest]
      rfl

lemma calls_texts {ms : List τ} (hms : ∀ m ∈ ms, Serde text fromStr m) {r : Source}
    (htexts : texts r = ms.map text) (hrest : rest r = []) (hend : r.ending = .eof) :
    calls (readLine (parsed fromStr) (parsed fromStr)) (ms.length + 1) r =
      (ms.map .message ++ [.ended], ⟨[], [], .eof⟩) := by
  induction ms generalizing r with
  | nil =>
    rcases readLine_cases (parsed fromStr) (parsed fromStr) r with ⟨t, r', h, -⟩ | ⟨-, hread⟩
    · rw [htexts] at h
      cases h
    · have hblank : trimmed ([] : Bytes) = "" := trimSpace_blank (by simp [lossy])
      simp [calls, hread, hrest, hend, atEnd, hblank]
  | cons m ms ih =>
    rcases readLine_cases (parsed fromStr) (parsed fromStr) r with
      ⟨t, r', h, hread, hend', hrest'⟩ | ⟨h, -⟩
    · rw [htexts, map_cons, cons.injEq] at h
      obtain ⟨rfl, htexts'⟩ := h
      have hcalls := ih (fun m' hm' => hms m' (mem_cons_of_mem m hm')) htexts'.symm
        (hrest'.trans hrest) (hend'.trans hend)
      have hparsed : parsed fromStr (text m) = .message m := by
        rw [parsed, (hms m mem_cons_self).fromStr_text]
      rw [length_cons, calls, hread, hcalls, hparsed]
      rfl
    · rw [htexts] at h
      cases h

lemma calls_lines {lines : List (Line τ)}
    (h : ∀ m ∈ lines.filterMap Line.message?, Serde text fromStr m) {reads : List Bytes}
    (hreads : reads.flatten = (lines.map (Line.text text)).flatMap written) :
    calls (readLine (parsed fromStr) (parsed fromStr))
        ((lines.filterMap Line.message?).length + 1) ⟨[], reads, .eof⟩ =
      ((lines.filterMap Line.message?).map .message ++ [.ended], ⟨[], [], .eof⟩) := by
  have honeLine : ∀ cs ∈ lines.map (Line.text text), '\n' ∉ cs := by
    intro cs hcs
    obtain ⟨line, hline, rfl⟩ := mem_map.mp hcs
    cases line with
    | message m => exact (h m (mem_filterMap.mpr ⟨_, hline, rfl⟩)).oneLine
    | blank space hspace => exact fun hmem => (hspace '\n' hmem).2 rfl
  obtain ⟨htexts, hrest⟩ := texts_written honeLine hreads .eof
  exact calls_texts h (htexts.trans (filter_texts h)) hrest rfl

/-- **What is written is read**, however the bytes are cut. -/
theorem requests_and_responses_read :
    (∀ (text : TunnelRequest → String) (fromStr : String → Except String TunnelRequest)
      (lines : List (Line TunnelRequest)) (reads : List Bytes),
      (∀ m ∈ lines.filterMap Line.message?, Serde text fromStr m) →
      reads.flatten = (lines.map (Line.text text)).flatMap written →
      calls (readRequest fromStr) ((lines.filterMap Line.message?).length + 1) ⟨[], reads, .eof⟩ =
        ((lines.filterMap Line.message?).map .message ++ [.ended], ⟨[], [], .eof⟩)) ∧
    (∀ (text : TunnelResponse → String) (fromStr : String → Except String TunnelResponse)
      (lines : List (Line TunnelResponse)) (reads : List Bytes),
      (∀ m ∈ lines.filterMap Line.message?, Serde text fromStr m) →
      reads.flatten = (lines.map (Line.text text)).flatMap written →
      calls (readResponse fromStr) ((lines.filterMap Line.message?).length + 1) ⟨[], reads, .eof⟩ =
        ((lines.filterMap Line.message?).map .message ++ [.ended], ⟨[], [], .eof⟩)) :=
  ⟨fun _ _ _ _ h hreads => calls_lines h hreads, fun _ _ _ _ h hreads => calls_lines h hreads⟩

lemma blank_singleton {c : Char} (h : isSpace c = true ∧ c ≠ '\n') :
    ∀ d ∈ [c], isSpace d = true ∧ d ≠ '\n' :=
  fun _ hd => mem_singleton.mp hd ▸ h

/-- A request between two blank lines, cut inside the wide space of the first. -/
theorem request_read : calls (readRequest fun _ => .ok {}) 2
      ⟨[], [[0xe3, 0x80], [0x80, 0x0a, 0x7b], [0x7d, 0x0a, 0x20, 0x0a]], .eof⟩ =
    ([.message {}, .ended], ⟨[], [], .eof⟩) := by
  have hserde : Serde (fun _ => "\x7b\x7d") (fun _ => .ok {}) ({} : TunnelRequest) :=
    ⟨rfl, by decide, [], rfl⟩
  exact requests_and_responses_read.1 (fun _ => "\x7b\x7d") (fun _ => .ok {})
    [.blank ['\u3000'] (blank_singleton (by decide)), .message {},
      .blank [' '] (blank_singleton (by decide))] _
    (fun m hm => by simp [Line.message?] at hm; exact hm ▸ hserde) (by decide)

end Tokilake.Tunnel.Codec
