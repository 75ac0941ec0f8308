import Tokilake.Lib.Run
import Tokilake.Tunnel.Roundtrip

/-! # The body of a response over the Rust tunnel

`pump_response` runs its loop inside a `select!` that throws its result away, so after any error the
body channel ends as behind an eof frame.  Here the pump, its consumer and a cancellation interleave
step by step, and `items` is a history.

* `call_runs`: what `Roundtrip` computes of the pump is a run of these steps;
* `body_honest_iff`: the channel ends for a reason that the consumer sees exactly if the stream does
  not break;
* `truncated_unnoticed`: a stream that closes early looks like a complete body. -/

namespace Tokilake.Tunnel.Body

open Lib.Run Lib.Lines Tunnel.Roundtrip
open Core.TunnelStream (ErrorMessage newline)

abbrev Item := Except TunnelStreamError Bytes

/-- The pump reads, looks for a line, or waits for room, behind the `last` item of which it returns.
-/
inductive Phase
  | reading
  | lines
  | sending (item : Item) (last : Bool)
  | ended
  deriving DecidableEq

structure State where
  buffer : Bytes
  items : List Item
  received : ℕ := 0
  eof : Bool := false
  cancelled : Bool := false
  gone : Bool := false
  phase : Phase := .reading
  deriving DecidableEq

def capacity : ℕ := 32

/-- What `call` leaves for the pump.  Behind an eof frame there is no pump. -/
def start (header : TunnelResponse) (buffer : Bytes) : State where
  buffer
  items := sendChunk header []
  eof := header.eof
  phase := if header.eof then .ended else .reading

inductive Label
  | read (result : Except String Bytes)
  | line
  | send
  | stop
  | recv
  | cancel
  | drop

def frame (s : State) (resp : TunnelResponse) : State :=
  match resp.error with
  | some err => { s with phase := .sending (.error (.fromErrorMessage err)) true }
  | none =>
    let s := { s with eof := s.eof || resp.eof }
    if resp.bodyChunk = [] then { s with phase := if resp.eof then .ended else .lines }
    else { s with phase := .sending (.ok resp.bodyChunk) resp.eof }

variable (decode : Bytes → Except String TunnelResponse)

def step (s : State) : Label → Option State
  | .read result =>
    match s.phase, result with
    | .reading, .error _ => some { s with phase := .ended }
    | .reading, .ok bs =>
      if bs = [] then some { s with phase := .ended }
      else if maxBuffer < (s.buffer ++ bs).length then
        some { s with buffer := s.buffer ++ bs, phase := .ended }
      else some { s with buffer := s.buffer ++ bs, phase := .lines }
    | _, _ => none
  | .line =>
    match s.phase with
    | .lines =>
      match takeLine newline s.buffer with
      | none => some { s with phase := .reading }
      | some (text, rest) =>
        if text.dropLast = [] then some { s with buffer := rest }
        else match decode text.dropLast with
          | .error _ => some { s with buffer := rest, phase := .ended }
          | .ok resp => some (frame { s with buffer := rest } resp)
    | _ => none
  | .send =>
    match s.phase with
    | .sending item last =>
      -- a send into a channel that is gone fails, and the pump returns
      if s.gone then some { s with phase := .ended }
      else if s.items.length < s.received + capacity then
        some { s with items := s.items ++ [item], phase := if last then .ended else .lines }
      else none
    | _ => none
  -- the other arm of the `select!`, at a place where the loop waits; it closes the stream
  | .stop =>
    match s.cancelled, s.phase with
    | true, .reading => some { s with phase := .ended }
    | true, .sending _ _ => some { s with phase := .ended }
    | _, _ => none
  | .recv =>
    if s.gone = false ∧ s.received < s.items.length then
      some { s with received := s.received + 1 }
    else none
  | .cancel => some { s with cancelled := true }
  | .drop => some { s with gone := true }

/-! ### What is claimed of a step -/

/-- The channel ends behind an error item, an eof frame, a cancellation or a drop. -/
def Explained (s : State) : Prop :=
  (∃ err, Except.error err ∈ s.items) ∨ s.eof = true ∨ s.cancelled = true ∨ s.gone = true

def HonestEnd (s : State) (a : Label) : Prop :=
  s.phase ≠ .ended → ∀ t, step decode s a = some t → t.phase = .ended → Explained t

/-- A read fails or finds the end, the buffer gets too large, or a line is no frame. -/
def Breaks (s : State) : Label → Prop
  | .read (.error _) => s.phase = .reading
  | .read (.ok bs) => s.phase = .reading ∧ (bs = [] ∨ maxBuffer < (s.buffer ++ bs).length)
  | .line => s.phase = .lines ∧ ∃ text rest err, takeLine newline s.buffer = some (text, rest) ∧
      text.dropLast ≠ [] ∧ decode text.dropLast = .error err
  | _ => False

def Whole (s : State) (a : Label) : Prop := Breaks decode s a → s.cancelled = true ∨ s.gone = true

section

variable {decode} {s t u : State}

/-! ### The pump of `Roundtrip` -/

/-- With a consumer that takes every item at once, the pump does what `Roundtrip` computes: `p` is
sent, and it has returned, or it reads on with the bytes `left`. -/
structure Follows (decode : Bytes → Except String TunnelResponse) (s : State) (p : Pump)
    (left : Bytes) (t : State) : Prop where
  reaches : ∃ labels, run (step decode) s labels = some t
  items : t.items = p.sent
  taken : t.received = t.items.length
  present : t.gone = false
  phase : t.phase = if p.finished then .ended else .reading
  buffer : p.finished = false → t.buffer = left

lemma Follows.after {p : Pump} {left : Bytes} (labels : List Label)
    (hrun : run (step decode) s labels = some t) (h : Follows decode t p left u) :
    Follows decode s p left u := by
  obtain ⟨later, hlater⟩ := h.reaches
  exact { h with reaches := ⟨labels ++ later, run_append.mpr ⟨t, hrun, hlater⟩⟩ }

/-- An item is sent and received. -/
lemma run_send {item : Item} {last : Bool} (hphase : s.phase = .sending item last)
    (hgone : s.gone = false) (htaken : s.received = s.items.length) :
    run (step decode) s [.send, .recv] = some { s with
      items := s.items ++ [item], received := s.received + 1
      phase := if last then .ended else .lines } := by
  simp [run, step, hphase, hgone, htaken, capacity]

variable (decode) in
lemma run_frame_error {resp : TunnelResponse} {err : ErrorMessage} (hgone : s.gone = false)
    (htaken : s.received = s.items.length) (herror : resp.error = some err) :
    run (step decode) (frame s resp) [.send, .recv] = some { s with
      items := s.items ++ [.error (.fromErrorMessage err)], received := s.received + 1
      phase := .ended } := by
  have hframe : frame s resp =
      { s with phase := .sending (.error (.fromErrorMessage err)) true } := by
    simp [frame, herror]
  rw [hframe]
  exact run_send (s := { s with phase := .sending _ true }) rfl hgone htaken

variable (decode) in
lemma run_frame_ok {resp : TunnelResponse} (hgone : s.gone = false)
    (htaken : s.received = s.items.length) (herror : resp.error = none) :
    ∃ labels, run (step decode) (frame s resp) labels = some { s with
      items := sendChunk resp s.items, received := (sendChunk resp s.items).length
      eof := s.eof || resp.eof, phase := if resp.eof then .ended else .lines } := by
  by_cases hchunk : resp.bodyChunk = []
  · refine ⟨[], ?_⟩
    simp [frame, herror, hchunk, sendChunk, htaken]
  · have hframe : frame s resp = { s with
        eof := s.eof || resp.eof, phase := .sending (.ok resp.bodyChunk) resp.eof } := by
      simp [frame, herror, hchunk]
    refine ⟨[.send, .recv], ?_⟩
    rw [hframe, run_send (s := { s with eof := _, phase := .sending _ _ }) rfl hgone htaken]
    simp [sendChunk, hchunk, htaken]

variable (decode) in
lemma follows_lines {lines : List Bytes} {left : Bytes} (hphase : s.phase = .lines)
    (hgone : s.gone = false) (htaken : s.received = s.items.length)
    (hlines : splitLines newline s.buffer = (lines, left)) :
    ∃ t, Follows decode s (pumpLines decode lines s.items) left t := by
  induction lines generalizing s with
  | nil =>
    cases htake : takeLine newline s.buffer with
    | some lr => simp [splitLines_of_takeLine htake] at hlines
    | none =>
      rw [splitLines_of_takeLine_none htake, Prod.mk.injEq] at hlines
      have hline : run (step decode) s [.line] = some { s with phase := .reading } := by
        simp [run, step, hphase, htake]
      exact ⟨_, ⟨_, hline⟩, rfl, htaken, hgone, rfl, fun _ => hlines.2⟩
  | cons line lines ih =>
    cases htake : takeLine newline s.buffer with
    | none => simp [splitLines_of_takeLine_none htake] at hlines
    | some lr =>
      obtain ⟨text, rest⟩ := lr
      rw [splitLines_of_takeLine htake, Prod.mk.injEq, List.cons.injEq] at hlines
      obtain ⟨⟨rfl, hmore⟩, hleft⟩ := hlines
      have hrest : splitLines newline rest = (lines, left) := Prod.ext hmore hleft
      rw [pumpLines]
      by_cases htext : text.dropLast = []
      · rw [if_pos htext]
        obtain ⟨t, ht⟩ := ih (s := { s with buffer := rest }) hphase hgone htaken hrest
        exact ⟨t, ht.after [.line] (by simp [run, step, hphase, htake, htext])⟩
      rw [if_neg htext]
      cases hdecode : decode text.dropLast with
      | error err =>
        have hline : run (step decode) s [.line] =
            some { s with buffer := rest, phase := .ended } := by
          simp [run, step, hphase, htake, htext, hdecode]
        exact ⟨_, ⟨_, hline⟩, rfl, htaken, hgone, rfl, fun h => by cases h⟩
      | ok resp =>
        have hline : run (step decode) s [.line] = some (frame { s with buffer := rest } resp) := by
          simp [run, step, hphase, htake, htext, hdecode]
        dsimp only
        cases herror : resp.error with
        | some err =>
          have hframe := run_frame_error decode (s := { s with buffer := rest }) hgone htaken herror
          exact ⟨_, .after [.line] hline
            ⟨⟨_, hframe⟩, rfl, by simp [htaken], hgone, rfl, fun h => by cases h⟩⟩
        | none =>
          obtain ⟨labels, hlabels⟩ :=
            run_frame_ok decode (s := { s with buffer := rest }) hgone htaken herror
          cases heof : resp.eof with
          | true =>
            refine ⟨_, .after [.line] hline
              ⟨⟨labels, hlabels⟩, rfl, rfl, hgone, ?_, fun h => by cases h⟩⟩
            simp [heof]
          | false =>
            obtain ⟨t, ht⟩ := ih (s := { s with
              buffer := rest, items := sendChunk resp s.items
              received := (sendChunk resp s.items).length, eof := s.eof || resp.eof })
              hphase hgone rfl hrest
            refine ⟨t, .after [.line] hline (.after labels ?_ ht)⟩
            simpa [heof, hphase] using hlabels

variable (decode) in
lemma ends_of_breaks {a : Label} (h : Breaks decode s a) :
    s.phase ≠ .ended ∧ (s.phase = .reading ∨ s.phase = .lines) ∧
      ∃ left, step decode s a = some { s with buffer := left, phase := .ended } := by
  cases a with
  | read result =>
    cases result with
    | error err =>
      have hphase : s.phase = .reading := h
      exact ⟨by simp [hphase], .inl hphase, s.buffer, by simp [step, hphase]⟩
    | ok bs =>
      obtain ⟨hphase, hbad⟩ := h
      refine ⟨by simp [hphase], .inl hphase, ?_⟩
      by_cases hempty : bs = []
      · exact ⟨s.buffer, by simp [step, hphase, hempty]⟩
      · refine ⟨s.buffer ++ bs, ?_⟩
        simp only [step, hphase, if_neg hempty]
        exact if_pos (hbad.resolve_left hempty)
  | line =>
    obtain ⟨hphase, text, rest, err, htake, htext, hdecode⟩ := h
    exact ⟨by simp [hphase], .inr hphase, rest, by simp [step, hphase, htake, htext, hdecode]⟩
  | send | stop | recv | cancel | drop => exact h.elim

variable (decode) in
lemma follows_pump (reads : List (Except String Bytes)) (hphase : s.phase = .reading)
    (hgone : s.gone = false) (htaken : s.received = s.items.length) :
    ∃ left t, Follows decode s (pumpResponse decode reads s.buffer s.items) left t := by
  induction reads generalizing s with
  | nil => exact ⟨s.buffer, s, ⟨[], rfl⟩, rfl, htaken, hgone, hphase, fun _ => rfl⟩
  | cons read reads ih =>
    cases read with
    | error err =>
      have hread : run (step decode) s [.read (.error err)] = some { s with phase := .ended } := by
        simp [run, step, hphase]
      exact ⟨[], _, ⟨_, hread⟩, rfl, htaken, hgone, rfl, fun h => by cases h⟩
    | ok bs =>
      rw [pumpResponse]
      by_cases hbad : bs = [] ∨ maxBuffer < (s.buffer ++ bs).length
      · rw [if_pos hbad]
        obtain ⟨-, -, left, hstep⟩ := ends_of_breaks decode (a := .read (.ok bs)) ⟨hphase, hbad⟩
        have hread : run (step decode) s [.read (.ok bs)] =
            some { s with buffer := left, phase := .ended } := by
          rw [run, hstep]
          rfl
        exact ⟨[], _, ⟨_, hread⟩, rfl, htaken, hgone, rfl, fun h => by cases h⟩
      rw [if_neg hbad]
      obtain ⟨hne, hlen⟩ := not_or.mp hbad
      have hread : run (step decode) s [.read (.ok bs)] =
          some { s with buffer := s.buffer ++ bs, phase := .lines } := by
        simp only [run, step, hphase, if_neg hne, if_neg hlen, Option.bind_some]
      obtain ⟨t, ht⟩ :=
        follows_lines decode (s := { s with buffer := s.buffer ++ bs, phase := .lines })
        rfl hgone htaken Prod.mk.eta.symm
      obtain ⟨labels, hlabels⟩ := (Follows.after [.read (.ok bs)] hread ht).reaches
      rcases hpump : pumpLines decode (splitLines newline (s.buffer ++ bs)).1 s.items with
        ⟨sent, _ | _⟩
      · rw [hpump] at ht
        have hnext := ih (s := t) (by simpa using ht.phase) ht.present ht.taken
        rw [ht.buffer rfl, ht.items] at hnext
        exact hnext.imp fun left => .imp fun u => .after labels hlabels
      · rw [hpump] at ht
        exact ⟨_, t, .after [.read (.ok bs)] hread ht⟩

variable (decode) in
/-- The consumer takes the chunk of the header frame. -/
lemma start_received (header : TunnelResponse) (buffer : Bytes) :
    ∃ labels, run (step decode) (start header buffer) labels =
      some { start header buffer with received := (sendChunk header []).length } := by
  by_cases hchunk : header.bodyChunk = []
  · exact ⟨[], by simp [start, sendChunk, hchunk]⟩
  · exact ⟨[.recv], by simp [run, step, start, sendChunk, hchunk]⟩

/-- **The pump of `Roundtrip` is a run**: a consumer that takes every item at once gets what `call`
answers, and the channel ends exactly if the pump has returned. -/
theorem call_runs {header : TunnelResponse} {buffer : Bytes}
    {reads later : List (Except String Bytes)} {statusCode : UInt16}
    {headers : List (String × String)} {body : Pump}
    (hfirst : readFirst decode reads [] = .response header buffer later)
    (hcall : call decode reads = .response statusCode headers body) :
    ∃ labels t, run (step decode) (start header buffer) labels = some t ∧ t.items = body.sent ∧
      (t.phase = .ended ↔ body.finished = true) := by
  rw [call, hfirst] at hcall
  cases herror : header.error with
  | some err => simp [herror] at hcall
  | none =>
    simp only [herror, Outcome.response.injEq] at hcall
    obtain ⟨-, -, rfl⟩ := hcall
    cases heof : header.eof with
    | true => exact ⟨[], _, rfl, rfl, by simp [start, heof]⟩
    | false =>
      obtain ⟨first, hfirst⟩ := start_received decode header buffer
      obtain ⟨left, t, ht⟩ := follows_pump decode later
        (s := { start header buffer with received := (sendChunk header []).length })
        (by simp [start, heof]) rfl rfl
      obtain ⟨labels, hlabels⟩ := (ht.after first hfirst).reaches
      refine ⟨labels, t, hlabels, ht.items, ?_⟩
      rw [ht.phase]
      change (if (pumpResponse decode later buffer (sendChunk header [])).finished then _ else _) =
        _ ↔ (pumpResponse decode later buffer (sendChunk header [])).finished = true
      cases (pumpResponse decode later buffer (sendChunk header [])).finished <;> simp

/-! ### The end of the channel -/

/-- The item being sent is the last exactly if it is an error or the chunk of an eof frame. -/
structure Inv (s : State) : Prop where
  noError : s.phase ≠ .ended → ∀ err, Except.error err ∉ s.items
  noEof : s.phase = .reading ∨ s.phase = .lines → s.eof = false
  last : ∀ item last, s.phase = .sending item last →
    (last = true ↔ s.eof = true ∨ ∃ err, item = .error err)

lemma inv_start (header : TunnelResponse) (buffer : Bytes) : Inv (start header buffer) := by
  refine ⟨fun _ err => ?_, fun hphase => ?_, fun item last hphase => ?_⟩
  · simp only [start, sendChunk]
    split_ifs <;> simp
  · dsimp only [start] at hphase ⊢
    cases heof : header.eof with
    | false => rfl
    | true => simp [heof] at hphase
  · dsimp only [start] at hphase
    split_ifs at hphase

structure Good (decode : Bytes → Except String TunnelResponse) (s : State) (a : Label) (t : State) :
    Prop where
  inv : Inv t
  ends : s.phase ≠ .ended → t.phase = .ended → Explained t ∨ Breaks decode s a

lemma Inv.of_ended (h : t.phase = .ended) : Inv t := by
  refine ⟨fun hopen => absurd h hopen, fun hphase => ?_, fun item last hphase => ?_⟩
  · rcases hphase with hphase | hphase <;> cases h.symm.trans hphase
  · cases h.symm.trans hphase

lemma good_of_ended {a : Label} (h : t.phase = .ended) (hends : Explained t ∨ Breaks decode s a) :
    Good decode s a t := ⟨.of_ended h, fun _ _ => hends⟩

lemma good_of_open {a : Label} (h : Inv t) (hopen : t.phase ≠ .ended) : Good decode s a t :=
  ⟨h, fun _ hended => absurd hended hopen⟩

lemma good_frame {a : Label} (h : Inv t) (hphase : t.phase = .lines) (resp : TunnelResponse) :
    Good decode s a (frame t resp) := by
  have heof := h.noEof (.inr hphase)
  have herr := h.noError (by simp [hphase])
  unfold frame
  cases herror : resp.error with
  | some err => exact good_of_open ⟨fun _ => herr, by simp, by rintro item last ⟨⟩; simp⟩ nofun
  | none =>
    split_ifs with hchunk hlast
    · exact good_of_ended rfl (.inl (.inr (.inl (by simp [hlast]))))
    · exact good_of_open ⟨fun _ => herr, fun _ => by simp [heof, hlast], by simp⟩ nofun
    · refine good_of_open ⟨fun _ => herr, by simp, ?_⟩ nofun
      rintro item last ⟨⟩
      simp [heof]

lemma good_line (h : Inv s) (ht : step decode s .line = some t) : Good decode s .line t := by
  simp only [step] at ht
  split at ht
  · rename_i hphase
    have heof := h.noEof (.inr hphase)
    have herr := h.noError (by simp [hphase])
    split at ht
    · cases ht
      exact good_of_open ⟨fun _ => herr, fun _ => heof, by simp⟩ nofun
    rename_i text rest htake
    have hinv : Inv { s with buffer := rest } := ⟨fun _ => herr, fun _ => heof, by simp [hphase]⟩
    split at ht
    · cases ht
      exact good_of_open hinv (by simp [hphase])
    rename_i htext
    split at ht
    · cases ht
      exact good_of_ended rfl (.inr ⟨hphase, text, rest, _, htake, htext, ‹_›⟩)
    · cases ht
      exact good_frame hinv hphase _
  · cases ht

lemma good_send (h : Inv s) (ht : step decode s .send = some t) : Good decode s .send t := by
  simp only [step] at ht
  split at ht
  · rename_i item last hphase
    have hlast := h.last item last hphase
    have herr := h.noError (by simp [hphase])
    split at ht
    · rename_i hgone
      cases ht
      exact good_of_ended rfl (.inl (.inr (.inr (.inr hgone))))
    split at ht
    · cases ht
      cases last with
      | true =>
        refine good_of_ended rfl (.inl ?_)
        rcases hlast.mp rfl with heof | ⟨err, rfl⟩
        · exact .inr (.inl heof)
        · exact .inl ⟨err, by simp⟩
      | false =>
        have hnot : ¬ (s.eof = true ∨ ∃ err, item = .error err) := fun hor => by
          simpa using hlast.mpr hor
        rw [not_or, Bool.not_eq_true] at hnot
        refine good_of_open ⟨fun _ err hmem => ?_, fun _ => hnot.1, by simp⟩ nofun
        rcases List.mem_append.mp hmem with hold | hnew
        · exact herr err hold
        · exact hnot.2 ⟨err, (List.mem_singleton.mp hnew).symm⟩
    · cases ht
  · cases ht

lemma good_step {a : Label} (h : Inv s) (ht : step decode s a = some t) : Good decode s a t := by
  have hsame (hphase : t.phase = s.phase) (hinv : Inv t) : Good decode s a t :=
    ⟨hinv, fun hopen hended => absurd (hphase.symm.trans hended) hopen⟩
  cases a with
  | line => exact good_line h ht
  | send => exact good_send h ht
  | read result =>
    simp only [step] at ht
    split at ht
    · cases ht
      exact good_of_ended rfl (.inr ‹_›)
    · rename_i hphase
      split at ht
      · cases ht
        exact good_of_ended rfl (.inr ⟨‹_›, .inl ‹_›⟩)
      split at ht <;> cases ht
      · exact good_of_ended rfl (.inr ⟨‹_›, .inr ‹_›⟩)
      · exact good_of_open ⟨fun _ => h.noError (by simp [hphase]), fun _ => h.noEof (.inl hphase),
          by simp⟩ nofun
    · cases ht
  | stop =>
    simp only [step] at ht
    split at ht <;> cases ht <;> exact good_of_ended rfl (.inl (.inr (.inr (.inl ‹_›))))
  | recv =>
    simp only [step] at ht
    split at ht <;> cases ht
    exact hsame rfl ⟨h.noError, h.noEof, h.last⟩
  | cancel | drop =>
    cases ht
    exact hsame rfl ⟨h.noError, h.noEof, h.last⟩

lemma honestEnd_iff_whole (h : Inv s) (a : Label) : HonestEnd decode s a ↔ Whole decode s a := by
  constructor
  · intro hhonest hbreaks
    obtain ⟨hopen, hphase, left, ht⟩ := ends_of_breaks decode hbreaks
    rcases hhonest hopen _ ht rfl with ⟨err, herr⟩ | heof | hcaller
    · exact absurd herr (h.noError hopen err)
    · rw [h.noEof hphase] at heof
      cases heof
    · exact hcaller
  · intro hwhole hopen t ht hended
    rcases (good_step h ht).ends hopen hended with hexplained | hbreaks
    · exact hexplained
    · obtain ⟨-, -, left, ht'⟩ := ends_of_breaks decode hbreaks
      obtain rfl := Option.some.inj (ht'.symm.trans ht)
      exact .inr (.inr (hwhole hbreaks))

end

/-- **The end of the body is honest exactly if the stream does not break.** -/
theorem body_honest_iff (header : TunnelResponse) (buffer : Bytes) (labels : List Label) :
    Along (step decode) (HonestEnd decode) (start header buffer) labels ↔
      Along (step decode) (Whole decode) (start header buffer) labels := by
  have hinv : Stays (step decode) Inv (start header buffer) labels := fun _ _ hrun =>
    run_invariant' (fun hs ht => (good_step hs ht).inv) (inv_start header buffer) hrun
  exact ⟨along_imp (fun hs h => (honestEnd_iff_whole hs _).mp h) hinv,
    along_imp (fun hs h => (honestEnd_iff_whole hs _).mpr h) hinv⟩

def someHeader : TunnelResponse := { requestId := "r", statusCode := 200 }

def someDecode (line : Bytes) : Except String TunnelResponse :=
  if line = [1] then .ok { requestId := "r", bodyChunk := [7] } else .error "expected value"

def oneChunk : List Label := [.read (.ok [1, newline]), .line, .send, .line, .recv]

/-- **A truncated body looks complete.** -/
theorem truncated_unnoticed :
    (∃ s, run (step someDecode) (start someHeader []) (oneChunk ++ [.read (.ok [])]) = some s ∧
      s.phase = .ended ∧ s.items = [.ok [7]] ∧ s.received = 1 ∧ s.eof = false ∧
      s.cancelled = false ∧ s.gone = false) ∧
    ¬ Along (step someDecode) (HonestEnd someDecode) (start someHeader [])
      (oneChunk ++ [.read (.ok [])]) := by
  have hrun : run (step someDecode) (start someHeader []) oneChunk =
      some { buffer := [], items := [.ok [7]], received := 1 } := rfl
  refine ⟨⟨_, run_append.mpr ⟨_, hrun, rfl⟩, rfl, rfl, rfl, rfl, rfl, rfl⟩, fun hhonest => ?_⟩
  have hlast := ((along_append hrun).mp hhonest).2.1
  rcases hlast nofun _ rfl rfl with ⟨err, herr⟩ | heof | hcancelled | hgone
  · simp at herr
  · cases heof
  · cases hcancelled
  · cases hgone

end Tokilake.Tunnel.Body
