import Tokilake.Tunnel.Roundtrip

/-! # When a response comes through

The pump delivers the chunks of the lines it sees, but if the header line ends in the last read, it
never looks at what that read brought (`stuck`).  A line of blanks between two frames and a read
that makes the buffer too large end the pump as an eof frame does, so the response is still
delivered if no chunk was to come behind them.

* `pumpLines_frames`: what is sent of the frames of which a first part has arrived;
* `readFirst_eq`: the read in which the header line ends;
* `delivered_iff`: exactly when status, headers and body come through. -/

namespace Tokilake.Tunnel.Response

open Lib.Lines Lib.Bytes Tunnel.Roundtrip List
open Core.TunnelStream (newline)

variable {decode : Bytes → Except String TunnelResponse} {D : Decoder} {reads : List Bytes}
  {sent : List (Except TunnelStreamError Bytes)}

/-! ### The lines of the frames -/

variable {f : Line D} {fs : List (Line D)}

@[simp] lemma dropLast_terminated (text : Bytes) : (terminated text).dropLast = text := by
  simp [terminated]

lemma isLine_terminated {text : Bytes} (h : newline ∉ text) : IsLine newline (terminated text) :=
  ⟨text, h, rfl⟩

lemma text_ne_nil (f : Line D) : f.text ≠ [] := by
  intro hnil
  obtain ⟨err, herr⟩ := D.blank [] rfl
  have hdec := f.decodes
  rw [hnil, herr] at hdec
  cases hdec

lemma isLine_lines : ∀ l ∈ fs.flatMap Line.lines, IsLine newline l := by
  intro l hl
  obtain ⟨f, -, hl⟩ := mem_flatMap.mp hl
  rcases mem_append.mp hl with hgap | hown
  · obtain ⟨g, hg, rfl⟩ := mem_map.mp hgap
    refine isLine_terminated fun hmem => ?_
    have hblank := all_eq_true.mp (f.blank g hg) newline hmem
    exact absurd hblank (by decide)
  · rw [mem_singleton.mp hown]
    exact isLine_terminated f.oneLine

/-- Empty lines are skipped, and a line of blanks ends the pump. -/
lemma pumpLines_gap {gap : List Bytes} (hblank : ∀ l ∈ gap, l.all isBlank = true)
    (later : List Bytes) : pumpLines D.decode (gap.map terminated ++ later) sent =
      if ∀ l ∈ gap, l = [] then pumpLines D.decode later sent else ⟨sent, true⟩ := by
  induction gap with
  | nil => simp
  | cons g gap ih =>
    rw [map_cons, cons_append, pumpLines, dropLast_terminated]
    by_cases hg : g = []
    · rw [if_pos hg, ih fun l hl => hblank l (mem_cons_of_mem g hl)]
      simp [hg]
    · obtain ⟨err, herr⟩ := D.blank g (hblank g mem_cons_self)
      rw [if_neg hg, herr, if_neg fun hall => hg (hall g mem_cons_self)]

/-- The items that a frame puts into the channel. -/
def chunkOf (f : Line D) : List Bytes :=
  if f.response.bodyChunk = [] then [] else [f.response.bodyChunk]

lemma flatten_chunkOf (f : Line D) : (chunkOf f).flatten = f.response.bodyChunk := by
  unfold chunkOf
  split_ifs with hc
  · rw [hc, flatten_nil]
  · exact flatten_singleton

lemma sendChunk_ok (f : Line D) (chunks : List Bytes) :
    sendChunk f.response (chunks.map .ok) = (chunks ++ chunkOf f).map .ok := by
  by_cases hc : f.response.bodyChunk = []
  · simp [sendChunk, chunkOf, hc]
  · simp [sendChunk, chunkOf, hc]

lemma pumpLines_frame (f : Line D) (chunks later : List Bytes) :
    pumpLines D.decode (f.lines ++ later) (chunks.map .ok) =
      if ∀ l ∈ f.gap, l = [] then
        if f.response.eof then ⟨(chunks ++ chunkOf f).map .ok, true⟩
        else pumpLines D.decode later ((chunks ++ chunkOf f).map .ok)
      else ⟨chunks.map .ok, true⟩ := by
  rw [Line.lines, append_assoc, pumpLines_gap f.blank, singleton_append, pumpLines,
    dropLast_terminated, if_neg (text_ne_nil f), f.decodes]
  simp only [f.noError, sendChunk_ok]


/-- Within the lines of a frame, no line is complete but those before it. -/
lemma splitLines_within {arrived later : Bytes} (hlt : arrived.length < f.lines.flatten.length)
    (hall : arrived ++ later = ((f :: fs).flatMap Line.lines).flatten) :
    ∃ gap, gap <+: f.gap ∧ (splitLines newline arrived).1 = gap.map terminated := by
  have hlines := congrArg Prod.fst (splitLines_append newline arrived later)
  rw [hall, splitLines_flatten isLine_lines, flatMap_cons] at hlines
  have hle : (splitLines newline arrived).1.flatten.length ≤ arrived.length := by
    have hjoin := congrArg length (flatten_splitLines newline arrived)
    rw [length_append] at hjoin
    omega
  rcases append_eq_append_iff.mp hlines with ⟨more, hlong, -⟩ | ⟨more, hshort, -⟩
  · rw [hlong, flatten_append, length_append] at hle
    omega
  · have hmore : more ≠ [] := by
      rintro rfl
      rw [append_nil] at hshort
      rw [← hshort] at hle
      omega
    have hgap : f.gap.map terminated = (splitLines newline arrived).1 ++ more.dropLast := by
      have hdrop := congrArg dropLast hshort
      rwa [dropLast_append_of_ne_nil hmore, Line.lines, dropLast_concat] at hdrop
    obtain ⟨gap, rest, hsplit, hfirst, -⟩ := map_eq_append_iff.mp hgap
    exact ⟨gap, ⟨rest, hsplit.symm⟩, hfirst.symm⟩

/-- Of the frames' bytes a first part has `arrived`. -/
lemma pumpLines_frames (hends : endsWithEof fs) {arrived later : Bytes}
    (hall : arrived ++ later = (fs.flatMap Line.lines).flatten) (chunks : List Bytes) :
    ∃ (more : List Bytes) (finished : Bool),
      pumpLines D.decode (splitLines newline arrived).1 (chunks.map .ok) =
        ⟨(chunks ++ more).map .ok, finished⟩ ∧
      (more.flatten = (fs.flatMap fun f => f.response.bodyChunk) ↔ AllThrough fs arrived.length) ∧
      (later = [] → finished = true) := by
  induction fs generalizing chunks arrived with
  | nil => exact hends.elim
  | cons f fs ih =>
    have hstops (h : ¬ (f.lines.flatten.length ≤ arrived.length ∧ ∀ l ∈ f.gap, l = [])) :
        [] = ((f :: fs).flatMap fun f => f.response.bodyChunk) ↔
          AllThrough (f :: fs) arrived.length := by
      rw [AllThrough, if_neg h, eq_comm, flatMap_eq_nil_iff]
    by_cases hlen : f.lines.flatten.length ≤ arrived.length
    · obtain ⟨rest, rfl⟩ : ∃ rest, arrived = f.lines.flatten ++ rest := by
        rw [flatMap_cons, flatten_append] at hall
        obtain ⟨rest, hrest⟩ := prefix_of_prefix_length_le (prefix_append _ _) ⟨later, hall⟩ hlen
        exact ⟨rest, hrest.symm⟩
      have hsplit : (splitLines newline (f.lines.flatten ++ rest)).1 =
          f.lines ++ (splitLines newline rest).1 := by
        have hown : splitLines newline f.lines.flatten = (f.lines, []) := by
          refine splitLines_flatten fun l hl => ?_
          exact isLine_lines l (mem_flatMap.mpr ⟨f, mem_singleton_self f, hl⟩)
        rw [splitLines_append, hown, nil_append]
      rw [hsplit, pumpLines_frame]
      by_cases hgap : ∀ l ∈ f.gap, l = []
      · have hthrough : AllThrough (f :: fs) (f.lines.flatten ++ rest).length ↔
            AllThrough fs rest.length := by
          rw [AllThrough, if_pos ⟨hlen, hgap⟩, length_append, Nat.add_sub_cancel_left]
        rw [if_pos hgap, hthrough]
        rw [endsWithEof] at hends
        by_cases heof : f.response.eof = true
        · rw [if_pos heof] at hends ⊢
          subst hends
          have hbody : (chunkOf f).flatten = [f].flatMap fun f => f.response.bodyChunk := by
            rw [flatten_chunkOf, flatMap_singleton]
          exact ⟨chunkOf f, true, rfl, iff_of_true hbody trivial, fun _ => rfl⟩
        rw [if_neg heof] at hends ⊢
        have hrest : rest ++ later = (fs.flatMap Line.lines).flatten := by
          rw [flatMap_cons, flatten_append, append_assoc] at hall
          exact append_cancel_left hall
        obtain ⟨more, finished, hpump, hiff, hfin⟩ := ih hends hrest (chunks ++ chunkOf f)
        refine ⟨chunkOf f ++ more, finished, by rw [hpump, append_assoc], ?_, hfin⟩
        rw [flatten_append, flatten_chunkOf, flatMap_cons, append_cancel_left_eq, hiff]
      · rw [if_neg hgap]
        exact ⟨[], true, by simp, hstops fun h => hgap h.2, fun _ => rfl⟩
    · obtain ⟨gap, hgap, hsplit⟩ := splitLines_within (not_le.mp hlen) hall
      rw [hsplit, ← append_nil (gap.map terminated),
        pumpLines_gap (fun l hl => f.blank l (hgap.subset hl))]
      refine ⟨[], !decide (∀ l ∈ gap, l = []), ?_, hstops fun h => hlen h.1, ?_⟩
      · by_cases hnil : ∀ l ∈ gap, l = []
        · rw [if_pos hnil, decide_eq_true hnil, append_nil]
          rfl
        · rw [if_neg hnil, decide_eq_false hnil, append_nil]
          rfl
      · rintro rfl
        rw [append_nil] at hall
        simp [hall] at hlen

/-! ### The header -/

lemma fitting_prefix (buffer : Bytes) (reads : List Bytes) : fitting buffer reads <+: reads := by
  induction reads generalizing buffer with
  | nil => exact nil_prefix
  | cons bs reads ih =>
    rw [fitting]
    split_ifs
    · exact nil_prefix
    · exact (prefix_cons_inj bs).mpr (ih _)

/-- The reads before the end of the header line, and the one with it. -/
structure HeaderAt (buffer : Bytes) (reads : List Bytes) (text : Bytes) (pre : List Bytes)
    (read : Bytes) (post : List Bytes) (left : Bytes) : Prop where
  reads_eq : reads = pre ++ read :: post
  pre_mem : newline ∉ pre.flatten
  read_mem : newline ∈ read
  left_le : left.length ≤ read.length
  head_eq : buffer ++ (pre.flatten ++ read) = text ++ newline :: left
  fitting_eq : fitting buffer reads = pre ++ read :: fitting (splitLines newline left).2 post

lemma readFirst_eq {text rest : Bytes} {resp : TunnelResponse} (htext : newline ∉ text)
    (hne : text ≠ []) (hdec : decode text = .ok resp) :
    ∀ {reads : List Bytes} {buffer : Bytes}, newline ∉ buffer →
      buffer ++ reads.flatten = text ++ newline :: rest → (∀ bs ∈ reads, bs ≠ []) →
      (readFirst decode (reads.map .ok) buffer = .failed tooLarge ∧
        newline ∉ (fitting buffer reads).flatten) ∨
      ∃ pre read post left, HeaderAt buffer reads text pre read post left ∧
        readFirst decode (reads.map .ok) buffer = .response resp left (post.map .ok)
  | [], buffer, hbuf, hpending, _ => by
    rw [flatten_nil, append_nil] at hpending
    exact absurd (hpending ▸ hbuf) (by simp)
  | bs :: reads, buffer, hbuf, hpending, hreads => by
    rw [flatten_cons, ← append_assoc] at hpending
    have hbs : bs ≠ [] := hreads bs mem_cons_self
    rw [map_cons]
    by_cases hlen : maxBuffer < (buffer ++ bs).length
    · exact .inl ⟨readFirst_large hbs hlen, by rw [fitting, if_pos hlen]; exact not_mem_nil⟩
    have hfit : fitting buffer (bs :: reads) =
        bs :: fitting (splitLines newline (buffer ++ bs)).2 reads := by
      rw [fitting, if_neg hlen]
    by_cases hmem : newline ∈ bs
    · -- the header line ends in this read
      obtain ⟨⟨line, left⟩, hline⟩ : ∃ lr, takeLine newline (buffer ++ bs) = some lr := by
        refine Option.ne_none_iff_exists'.mp fun hnone => ?_
        exact takeLine_eq_none_iff.mp hnone (mem_append_right _ hmem)
      have hwhole := takeLine_append hline reads.flatten
      rw [hpending, takeLine_text htext, Option.some.injEq, Prod.mk.injEq] at hwhole
      obtain ⟨rfl, hleft⟩ := hwhole
      have hhead : buffer ++ bs = text ++ newline :: left := by
        rw [(takeLine_eq hline).1, append_assoc, singleton_append]
      have hle : left.length ≤ bs.length := by
        rcases append_eq_append_iff.mp (takeLine_eq hline).1 with ⟨a, -, hbs⟩ | ⟨c, hc, -⟩
        · simp [hbs]
        · exact absurd (hc ▸ hbuf) (by simp)
      rw [splitLines_of_takeLine hline] at hfit
      have hdrop : (text ++ [newline]).dropLast = text := dropLast_terminated text
      exact .inr ⟨[], bs, reads, left, ⟨rfl, by simp, hmem, hle, hhead, hfit⟩,
        readFirst_line hbs (not_lt.mp hlen) hline (by rwa [hdrop]) (by rwa [hdrop])⟩
    · -- the header line goes on
      have hbuf' : newline ∉ buffer ++ bs := by simp [hbuf, hmem]
      rw [splitLines_no_newline hbuf'] at hfit
      rw [readFirst_more hbs (not_lt.mp hlen) (takeLine_eq_none_iff.mpr hbuf'), hfit]
      rcases readFirst_eq htext hne hdec hbuf' hpending
        fun cs hcs => hreads cs (mem_cons_of_mem bs hcs) with
        ⟨hlarge, hnone⟩ | ⟨pre, read, post, left, hat, hread⟩
      · exact .inl ⟨hlarge, by simp [hmem, hnone]⟩
      · refine .inr ⟨bs :: pre, read, post, left, ⟨by rw [cons_append, ← hat.reads_eq],
          by simp [hmem, hat.pre_mem], hat.read_mem, hat.left_le, ?_, ?_⟩, hread⟩
        · rw [flatten_cons, append_assoc, ← append_assoc, hat.head_eq]
        · rw [hfit, hat.fitting_eq, cons_append]

/-- The lines that `call` has read ahead fit, and no later read depends on them. -/
lemma fitting_left {left : Bytes} (hleft : left.length ≤ 8192)
    (hsizes : ∀ bs ∈ reads, bs.length ≤ 8192) :
    fitting left reads = fitting (splitLines newline left).2 reads := by
  cases reads with
  | nil => rfl
  | cons bs reads =>
    have hbs := hsizes bs mem_cons_self
    have htail : (splitLines newline left).2.length ≤ left.length := by
      have hjoin := congrArg length (flatten_splitLines newline left)
      rw [length_append] at hjoin
      omega
    have hsplit : (splitLines newline (left ++ bs)).2 =
        (splitLines newline ((splitLines newline left).2 ++ bs)).2 := by
      rw [splitLines_append]
    have hlen : (left ++ bs).length ≤ maxBuffer := by
      rw [length_append, maxBuffer]
      omega
    have hlen' : ((splitLines newline left).2 ++ bs).length ≤ maxBuffer := by
      rw [length_append, maxBuffer]
      omega
    rw [fitting, fitting, hsplit, if_neg (not_lt.mpr hlen), if_neg (not_lt.mpr hlen')]

/-! ### Whole responses -/

lemma answer_inj {x : Sent D} {p q : Pump} (h : x.answer p = x.answer q) : p = q := by injection h

lemma call_header {x : Sent D} {reads later : List (Except String Bytes)} {left : Bytes}
    (h : readFirst D.decode reads [] = .response x.header.response left later) :
    call D.decode reads = x.answer
      (if x.header.response.eof then ⟨(chunkOf x.header).map .ok, true⟩
        else pumpResponse D.decode later left ((chunkOf x.header).map .ok)) := by
  have hchunk := sendChunk_ok x.header []
  rw [map_nil, nil_append] at hchunk
  rw [call, h]
  simp only [x.header.noError, hchunk]
  rfl

lemma newline_mem_dropLast {pre post : List Bytes} {read : Bytes} (hpre : newline ∉ pre.flatten)
    (hread : newline ∈ read) : newline ∈ (pre ++ read :: post).dropLast.flatten ↔ post ≠ [] := by
  cases post with
  | nil => simpa using hpre
  | cons bs post =>
    refine iff_of_true ?_ (by simp)
    simp [hread]

lemma pump_delivers (x : Sent D) {post : List Bytes} {left : Bytes} (hends : endsWithEof x.rest)
    (hpending : left ++ post.flatten = (x.rest.flatMap Line.lines).flatten)
    (hleft : left.length ≤ 8192) (hsizes : ∀ bs ∈ post, bs ≠ [] ∧ bs.length ≤ 8192) :
    x.Delivered (x.answer
        (pumpResponse D.decode (post.map .ok) left ((chunkOf x.header).map .ok))) ↔
      post ≠ [] ∧ AllThrough x.rest (left.length + (fitting left post).flatten.length) := by
  by_cases hpost : post = []
  · subst hpost
    refine iff_of_false ?_ fun h => h.1 rfl
    rintro ⟨chunks, -, heq⟩
    cases congrArg Pump.finished (answer_inj heq)
  obtain ⟨late, hlate⟩ := fitting_prefix left post
  have hall : left ++ (fitting left post).flatten ++ late.flatten =
      (x.rest.flatMap Line.lines).flatten := by
    rw [append_assoc, ← flatten_append, hlate, hpending]
  obtain ⟨more, finished, hpump, hiff, hfin⟩ := pumpLines_frames hends hall (chunkOf x.header)
  have hfirst : ∀ bs ∈ post.head?, (left ++ bs).length ≤ maxBuffer := by
    intro bs hbs
    have hle := (hsizes bs (mem_of_mem_head? hbs)).2
    rw [length_append, maxBuffer]
    omega
  rw [pumpResponse_eq hfirst (fun bs hbs => (hsizes bs hbs).1) hpost, pumped, hpump,
    ← length_append, ← hiff, and_iff_right hpost]
  constructor
  · rintro ⟨chunks, hbody, heq⟩
    have hsent := congrArg Pump.sent (answer_inj heq)
    obtain rfl : chunkOf x.header ++ more = chunks :=
      map_injective_iff.mpr (fun a b h => by injection h) hsent
    rw [flatten_append, flatten_chunkOf, Sent.body, flatMap_cons] at hbody
    exact append_cancel_left hbody
  · intro hbody
    refine ⟨chunkOf x.header ++ more, ?_, ?_⟩
    · rw [flatten_append, flatten_chunkOf, hbody, Sent.body, flatMap_cons]
    · have hdone : (finished || decide (fitting left post ≠ post)) = true := by
        by_cases hwhole : fitting left post = post
        · have hnone : late = [] := by simpa [hwhole] using hlate
          rw [hfin (by rw [hnone, flatten_nil]), Bool.true_or]
        · simp [hwhole]
      rw [hdone]

/-- **When a response is delivered**: the header line ends before the last read, unless the header
is the eof frame, and every frame with a chunk arrives within the reads that fit, with nothing but
empty lines before it. -/
theorem delivered_iff (D : Decoder) (x : Sent D) (segs : Segments x.wire) :
    x.Delivered (call D.decode (segs.reads.map .ok)) ↔
      (x.header.response.eof = true ∨ newline ∈ segs.reads.dropLast.flatten) ∧
        newline ∈ (fitting [] segs.reads).flatten ∧
        AllThrough x.rest
          ((fitting [] segs.reads).flatten.length - (x.header.text.length + 1)) := by
  obtain ⟨reads, hflat, hsizes⟩ := segs
  have hwire : [] ++ reads.flatten =
      x.header.text ++ newline :: (x.rest.flatMap Line.lines).flatten := by
    rw [hflat]
    simp [Sent.wire, Line.lines, x.atStart, terminated]
  rcases readFirst_eq x.header.oneLine (text_ne_nil x.header) x.header.decodes not_mem_nil hwire
    fun bs hbs => (hsizes bs hbs).1 with ⟨hlarge, hnone⟩ | ⟨pre, read, post, left, hat, hread⟩
  · -- the header does not fit
    have hcall : call D.decode (reads.map .ok) = .failed tooLarge := by rw [call, hlarge]
    rw [hcall]
    refine iff_of_false ?_ fun h => hnone h.2.1
    rintro ⟨chunks, -, heq⟩
    cases heq
  have hhead : pre.flatten ++ read = x.header.text ++ newline :: left := hat.head_eq
  have hpending : left ++ post.flatten = (x.rest.flatMap Line.lines).flatten := by
    have hjoin : x.header.text ++ newline :: (left ++ post.flatten) =
        x.header.text ++ newline :: (x.rest.flatMap Line.lines).flatten := by
      rw [← cons_append, ← append_assoc, ← hhead, ← hwire, hat.reads_eq]
      simp
    exact (cons.inj (append_cancel_left hjoin)).2
  have hpost : ∀ bs ∈ post, bs ≠ [] ∧ bs.length ≤ 8192 := by
    intro bs hbs
    exact hsizes bs (by simp [hat.reads_eq, hbs])
  have hleft := hat.left_le.trans (hsizes read (by simp [hat.reads_eq])).2
  have hmem : newline ∈ (fitting [] reads).flatten := by
    rw [hat.fitting_eq]
    simp [hat.read_mem]
  have hlength : (fitting [] reads).flatten.length - (x.header.text.length + 1) =
      left.length + (fitting left post).flatten.length := by
    have hlen := congrArg length hhead
    rw [hat.fitting_eq, ← fitting_left hleft fun bs hbs => (hpost bs hbs).2]
    simp only [flatten_append, flatten_cons, length_append, length_cons] at hlen ⊢
    omega
  have hdrop : newline ∈ reads.dropLast.flatten ↔ post ≠ [] := by
    rw [hat.reads_eq]
    exact newline_mem_dropLast hat.pre_mem hat.read_mem
  have hends := x.ends
  rw [endsWithEof] at hends
  rw [call_header hread, hlength, and_iff_right hmem, hdrop]
  by_cases heof : x.header.response.eof = true
  · rw [if_pos heof] at hends ⊢
    refine iff_of_true ⟨_, ?_, rfl⟩ ⟨.inl heof, by rw [hends]; trivial⟩
    rw [flatten_chunkOf, Sent.body, hends, flatMap_singleton]
  · rw [if_neg heof] at hends ⊢
    rw [pump_delivers x hends hpending hleft hpost, or_iff_right heof]

def ofTable (entries : List (Bytes × TunnelResponse))
    (h : ∀ e ∈ entries, e.1.all isBlank = false) : Decoder where
  decode := fun line =>
    match entries.find? fun e => e.1 = line with
    | some e => .ok e.2
    | none => .error "expected value"
  blank := by
    intro line hline
    have hnone : entries.find? (fun e => e.1 = line) = none := by
      rw [find?_eq_none]
      intro e he heq
      have hfalse := h e he
      rw [of_decide_eq_true heq, hline] at hfalse
      cases hfalse
    exact ⟨_, by rw [hnone]⟩

def okHeader : Bytes × TunnelResponse :=
  (ascii "\x7b\"request_id\":\"r\",\"status_code\":200\x7d",
    { requestId := "r", statusCode := 200 })

def okBody : Bytes × TunnelResponse :=
  (ascii "\x7b\"request_id\":\"r\",\"body_chunk\":\"b2s=\",\"eof\":true\x7d",
    { requestId := "r", bodyChunk := [111, 107], eof := true })

def okDecoder : Decoder := ofTable [okHeader, okBody] (by decide)

def okResponse : Sent okDecoder where
  header :=
    { text := okHeader.1, response := okHeader.2, blank := by simp
      oneLine := by decide, decodes := rfl, noError := rfl }
  rest :=
    [{ text := okBody.1, response := okBody.2, blank := by simp
       oneLine := by decide, decodes := rfl, noError := rfl }]
  atStart := rfl
  ends := rfl

/-- Two frames in one read: the pump waits for another read and never looks at its buffer. -/
theorem stuck : ∃ segs : Segments okResponse.wire,
      call okDecoder.decode (segs.reads.map .ok) = okResponse.answer ⟨[], false⟩ ∧
      ¬ okResponse.Delivered (call okDecoder.decode (segs.reads.map .ok)) ∧
      call okDecoder.decode (segs.reads.map .ok ++ [.ok []]) =
        okResponse.answer ⟨[], true⟩ := by
  have hwaits : call okDecoder.decode [.ok okResponse.wire] = okResponse.answer ⟨[], false⟩ := by
    decide
  refine ⟨⟨[okResponse.wire], by simp, by decide⟩, hwaits, ?_, by decide⟩
  rintro ⟨chunks, -, heq⟩
  have hres := congrArg Pump.finished (answer_inj (hwaits.symm.trans heq))
  cases hres

end Tokilake.Tunnel.Response
