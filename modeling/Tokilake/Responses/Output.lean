import Tokilake.Responses.Stream
import Mathlib.Data.List.SplitBy

/-! # The output list of a Responses stream

The converter cuts the deltas into runs of one kind (and, for tool calls, of one index) and makes
one item of each.

* `terminalOutput_eq`: the output list for any deltas. -/

namespace Tokilake.Responses.Output

open Responses.Stream Responses.Stream.Converter List Option

/-! ### Runs of deltas -/

def lines (index : ℤ) (deltas : List Delta) (reason : String) : List Line :=
  deltas.map (fun d => .chunk [⟨index, d, none⟩]) ++ [.chunk [⟨index, {}, some reason⟩], .done]

def key (d : Delta) : ItemType × ℤ :=
  (getResponseType d, (d.toolCalls.head?.map ToolCall.index).getD 0)

def runs (deltas : List Delta) : List (List Delta) := deltas.splitBy fun d d' => key d = key d'

@[simp] def concat : List String → String
  | [] => ""
  | s :: ss => s ++ concat ss

def fragment (d : Delta) : String := ((firstFunction d).map Function.arguments).getD ""

def extend (arguments : Option String) (d : Delta) : Option String :=
  match firstFunction d with
  | none => arguments
  | some f => some (arguments.getD "" ++ f.arguments)

@[simp] def partOf (type : ItemType) (run : List Delta) : Option Part :=
  match type with
  | .message => some ⟨.outputText, concat (run.map Delta.content)⟩
  | .reasoning => some ⟨.summaryText, concat (run.map Delta.reasoningContent)⟩
  | .functionCall => none

@[simp] def bodyOf (first : Delta) (run : List Delta) : Body :=
  match getResponseType first with
  | .functionCall =>
    { newBody first .functionCall with
      arguments := run.foldl extend (newBody first .functionCall).arguments }
  | type => newBody first type

@[simp] def itemOf : List Delta → Body
  | [] => { type := .message }
  | first :: rest =>
    { bodyOf first (first :: rest) with
      content := (partOf (getResponseType first) (first :: rest)).toList }

/-! ### The converter in the middle of a run -/

structure Inside (c : Converter) (closed : List Body) (first : Delta)
    (rest : List Delta) : Prop where
  output : c.output.map Item.toBody = closed
  item : c.item.map Item.toBody = some (bodyOf first (first :: rest))
  part : c.part = partOf (getResponseType first) (first :: rest)
  content : c.content = []
  type : c.lastResponseType = some (getResponseType first)

structure InRun (c : Converter) (index : ℤ) (closed : List Body) (first : Delta)
    (rest : List Delta) :
    Prop extends Inside c closed first rest where
  tool : getResponseType first = .functionCall → c.lastToolCallIndex = (key first).2
  choice : c.lastChoiceIndex = index

structure Between (c : Converter) (closed : List Body) : Prop where
  output : c.output.map Item.toBody = closed
  item : c.item = none
  part : c.part = none
  content : c.content = []

@[simp] lemma concat_append (l l' : List String) : concat (l ++ l') = concat l ++ concat l' := by
  induction l with
  | nil => simp
  | cons s ss ih => simp [ih, String.append_assoc]

section
variable {c : Converter} {index : ℤ} {closed : List Body} {first d : Delta} {rest : List Delta}
variable {reason : Option String}

lemma head_of_functionCall (h : getResponseType d = .functionCall) :
    ∃ tool tools, d.toolCalls = tool :: tools := by
  cases htools : d.toolCalls with
  | nil =>
    unfold getResponseType at h
    rw [if_neg (not_not.mpr htools)] at h
    split_ifs at h
  | cons tool tools => exact ⟨tool, tools, rfl⟩

lemma toolCalls_of_ne (h : getResponseType d ≠ .functionCall) : d.toolCalls = [] := by
  by_contra hne
  exact h (if_pos hne)

lemma finished_body {item : Item} (hbody : item.toBody = bodyOf first (first :: rest))
    (hcontent : c.content = (partOf (getResponseType first) (first :: rest)).toList) :
    (c.finished item).toBody = itemOf (first :: rest) := by
  rw [itemOf, ← hbody, ← hcontent]
  rfl

lemma between_done (h : Inside c closed first rest) :
    Between c.done (closed ++ [itemOf (first :: rest)]) ∧
      c.done.lastToolCallIndex = c.lastToolCallIndex := by
  obtain ⟨houtput, hitem, hpart, hcontent, htype⟩ := h
  obtain ⟨item, hitem', hbody⟩ := map_eq_some_iff.mp hitem
  -- once the part has ended, the item is closed with it
  have hclose : ∀ c' : Converter, c'.output = c.output → c'.item = some item → c'.part = none →
      c'.content = (partOf (getResponseType first) (first :: rest)).toList →
      c.donePart = c' → c'.lastToolCallIndex = c.lastToolCallIndex →
      Between c.done (closed ++ [itemOf (first :: rest)]) ∧
        c.done.lastToolCallIndex = c.lastToolCallIndex := by
    intro c' h1 h2 h3 h4 h5 h6
    unfold done
    rw [h5]
    dsimp only
    rw [h2]
    refine ⟨⟨?_, rfl, h3, rfl⟩, h6⟩
    show (c'.output ++ [c'.finished item]).map Item.toBody = _
    rw [map_append, h1, houtput, map_singleton, finished_body hbody h4]
  unfold donePart at hclose
  rw [htype] at hclose
  cases hkind : getResponseType first with
  | message =>
    rw [hkind] at hclose hpart
    refine hclose _ ?_ ?_ ?_ ?_ rfl ?_
    all_goals simp [doneMessagePart, hpart, send, hitem', hcontent]
  | reasoning =>
    rw [hkind] at hclose hpart
    refine hclose _ ?_ ?_ ?_ ?_ rfl ?_
    all_goals simp [doneReasoningPart, hpart, send, hitem', hcontent]
  | functionCall =>
    rw [hkind] at hclose hpart
    refine hclose _ ?_ ?_ ?_ ?_ rfl ?_
    all_goals simp [doneFunctionCall, hpart, send, hitem', hcontent]

lemma inRun_new (h : Between c closed) (htool : getResponseType d = .functionCall →
      c.lastToolCallIndex = (key d).2) (id : ℕ) :
    InRun ((c.openItem { newBody d (getResponseType d) with id, status := .inProgress }).processItem
      ⟨index, d, reason⟩) index closed d [] := by
  obtain ⟨houtput, hitem, hpart, hcontent⟩ := h
  cases hkind : getResponseType d with
  | message | reasoning =>
    refine ⟨⟨?_, ?_, ?_, ?_, ?_⟩, ?_, ?_⟩
    all_goals simp [processItem, openItem, send, processContent, processMessage, processReasoning,
      doneMessagePart, doneReasoningPart, extendPart, hpart, hkind, houtput, hcontent]
  | functionCall =>
    have htool := htool hkind
    cases hf : firstFunction d
    all_goals
      refine ⟨⟨?_, ?_, ?_, ?_, ?_⟩, ?_, ?_⟩
      all_goals simp [processItem, openItem, send, processContent, processFunctionCall, hf, hpart,
        hkind, houtput, hcontent, htool, extend, addArguments]

lemma inRun_processItem (h : InRun c index closed first rest)
    (hd : getResponseType d = getResponseType first) :
    InRun (c.processItem ⟨index, d, reason⟩) index closed first (rest ++ [d]) := by
  obtain ⟨⟨houtput, hitem, hpart, hcontent, htype⟩, htool, hchoice⟩ := h
  cases hkind : getResponseType first with
  | message | reasoning =>
    rw [hkind] at hd hpart
    refine ⟨⟨?_, ?_, ?_, ?_, ?_⟩, ?_, ?_⟩
    all_goals simp [processItem, send, processContent, processMessage, processReasoning,
      extendPart, hchoice, hpart, hd, hkind, houtput, hitem, hcontent, String.append_assoc]
  | functionCall =>
    have htool := htool hkind
    rw [hkind] at hd hpart
    obtain ⟨item, hitem', hbody⟩ := map_eq_some_iff.mp hitem
    cases hf : firstFunction d with
    | none =>
      refine ⟨⟨?_, ?_, ?_, ?_, ?_⟩, ?_, ?_⟩
      all_goals simp [processItem, send, processContent, processFunctionCall, hf, hpart, hd, hkind,
        houtput, hitem', hbody, hcontent, htool, extend]
    | some f =>
      refine ⟨⟨?_, ?_, ?_, ?_, ?_⟩, ?_, ?_⟩
      all_goals simp [processItem, send, processContent, processFunctionCall, hf, hpart, hd, hkind,
        houtput, hitem', hcontent, htool, extend, addArguments]
      rw [hbody]
      simp [hkind, extend]

lemma toolCallIndex_eq (h : getResponseType d = .functionCall) : c.toolCallIndex d = (key d).2 := by
  obtain ⟨tool, tools, htools⟩ := head_of_functionCall h
  simp [toolCallIndex, key, htools]

lemma toolCallIndex_of_ne (h : getResponseType d ≠ .functionCall) :
    c.toolCallIndex d = c.lastToolCallIndex := by
  simp [toolCallIndex, toolCalls_of_ne h]

lemma key_snd_of_ne (h : getResponseType d ≠ .functionCall) : (key d).2 = 0 := by
  simp [key, toolCalls_of_ne h]

lemma inside_note (h : Inside c closed first rest) (choice : Choice) :
    Inside (c.note choice) closed first rest := ⟨h.output, h.item, h.part, h.content, h.type⟩

lemma inRun_same (h : InRun c index closed first rest) (hkey : key d = key first)
    (reason : Option String) :
    InRun (c.processChoice ⟨index, d, reason⟩) index closed first (rest ++ [d]) := by
  have hd : getResponseType d = getResponseType first := congrArg Prod.fst hkey
  have hindex : c.toolCallIndex d = c.lastToolCallIndex := by
    by_cases hf : getResponseType d = .functionCall
    · rw [toolCallIndex_eq hf, hkey, h.tool (hd ▸ hf)]
    · exact toolCallIndex_of_ne hf
  rw [processChoice, if_neg]
  · exact inRun_processItem ⟨inside_note h.toInside _,
      fun hf => hindex.trans (h.tool hf), h.choice⟩ hd
  · rintro (hne | hne)
    · exact hne (h.type.trans (congrArg some hd.symm))
    · exact hne hindex.symm

lemma inRun_other (h : InRun c index closed first rest) (hkey : key d ≠ key first)
    (reason : Option String) :
    InRun (c.processChoice ⟨index, d, reason⟩) index (closed ++ [itemOf (first :: rest)]) d [] := by
  have hnew : c.lastResponseType ≠ some (getResponseType d) ∨
      c.lastToolCallIndex ≠ c.toolCallIndex d := by
    by_cases hd : getResponseType d = getResponseType first
    · refine Or.inr fun hindex => hkey (Prod.ext hd ?_)
      by_cases hf : getResponseType d = .functionCall
      · rw [← toolCallIndex_eq hf, ← hindex, h.tool (hd ▸ hf)]
      · rw [key_snd_of_ne hf, key_snd_of_ne (hd ▸ hf)]
    · exact Or.inl fun htype => hd (some.inj (htype.symm.trans h.type))
  obtain ⟨hbetween, hindex⟩ := between_done (inside_note h.toInside ⟨index, d, reason⟩)
  have hitem : (c.note ⟨index, d, reason⟩).item.isSome = true := by
    obtain ⟨item, hitem, -⟩ := map_eq_some_iff.mp h.item
    exact isSome_iff_exists.mpr ⟨item, hitem⟩
  rw [processChoice, if_pos hnew, createNewItem, if_pos hitem]
  exact inRun_new hbetween (fun hf => hindex.trans (toolCallIndex_eq hf)) _

/-! ### Whole streams -/

lemma inside_start (h : InRun c index closed first rest) :
    InRun c.start index closed first rest := by
  unfold start
  split_ifs
  · exact ⟨⟨h.output, h.item, h.part, h.content, h.type⟩, h.tool, h.choice⟩
  · exact h

lemma runs_of_key (h : ∀ x ∈ rest, key x = key first) (ds : List Delta)
    (hd : ∀ x ∈ ds.head?, key x ≠ key first) :
    runs (first :: rest ++ ds) = (first :: rest) :: runs ds := by
  have hall : ∀ x ∈ first :: rest, key x = key first := by
    intro x hx
    rcases mem_cons.mp hx with rfl | hx
    · rfl
    · exact h x hx
  have hchain : (first :: rest).IsChain fun x y => decide (key x = key y) = true := by
    refine List.Pairwise.isChain (pairwise_of_forall_mem_list fun x hx y hy => ?_)
    exact decide_eq_true ((hall x hx).trans (hall y hy).symm)
  unfold runs
  rw [splitBy_append fun x hx y hy => ?_, splitBy_of_isChain (cons_ne_nil _ _) hchain]
  · rfl
  · have hx := hall x (mem_of_mem_getLast? hx)
    exact decide_eq_false fun heq => hd y hy (heq.symm.trans hx)

def step (index : ℤ) (c : Converter) (d : Delta) : Converter :=
  c.start.processChoice ⟨index, d, none⟩

lemma inRun_steps (ds : List Delta) (h : InRun c index closed first rest)
    (hkey : ∀ x ∈ rest, key x = key first) :
    ∃ closed' first' rest', InRun (ds.foldl (step index) c) index closed' first' rest' ∧
      (∀ x ∈ rest', key x = key first') ∧
      ∀ tail, closed' ++ (runs (first' :: rest' ++ tail)).map itemOf =
        closed ++ (runs (first :: rest ++ (ds ++ tail))).map itemOf := by
  induction ds generalizing c closed first rest with
  | nil => exact ⟨closed, first, rest, h, hkey, fun tail => rfl⟩
  | cons d ds ih =>
    by_cases hd : key d = key first
    · have hkey' : ∀ x ∈ rest ++ [d], key x = key first := by
        intro x hx
        rcases mem_append.mp hx with hx | hx
        · exact hkey x hx
        · rw [mem_singleton.mp hx, hd]
      obtain ⟨closed', first', rest', hrun, hkey'', htail⟩ :=
        ih (inRun_same (inside_start h) hd none) hkey'
      refine ⟨closed', first', rest', hrun, hkey'', fun tail => ?_⟩
      rw [htail]
      simp
    · obtain ⟨closed', first', rest', hrun, hkey'', htail⟩ :=
        ih (inRun_other (inside_start h) hd none) (fun x hx => by cases hx)
      refine ⟨closed', first', rest', hrun, hkey'', fun tail => ?_⟩
      rw [htail, runs_of_key hkey (d :: ds ++ tail) (by simpa using hd)]
      simp

lemma inRun_first (index : ℤ) (d : Delta) (reason : Option String) :
    InRun ((start {}).processChoice ⟨index, d, reason⟩) index [] d [] := by
  have hnew : (start {}).lastResponseType ≠ some (getResponseType d) ∨
      (start {}).lastToolCallIndex ≠ (start {}).toolCallIndex d := Or.inl (by simp [start, send])
  rw [processChoice, if_pos hnew]
  exact inRun_new ⟨rfl, rfl, rfl, rfl⟩
    (fun hf => toolCallIndex_eq hf) _

lemma output_finalize (h : InRun c index closed first rest) :
    (processStreamData c .done).output.map Item.toBody = closed ++ [itemOf (first :: rest)] := by
  have hitem : c.item.isSome = true := by
    obtain ⟨item, hitem, -⟩ := map_eq_some_iff.mp h.item
    exact isSome_iff_exists.mpr ⟨item, hitem⟩
  unfold processStreamData finalizeStream
  rw [if_pos hitem]
  exact (between_done h.toInside).1.output

lemma inRun_finish (h : InRun c index closed first rest) (hkey : ∀ x ∈ rest, key x = key first)
    (d : Delta) (reason : Option String) :
    (processStreamData (processStreamData c (.chunk [⟨index, d, reason⟩])) .done).output.map
        Item.toBody = closed ++ (runs (first :: rest ++ [d])).map itemOf := by
  have hrun := inside_start h
  by_cases hd : key d = key first
  · have hkey' : ∀ x ∈ rest ++ [d], key x = key first := by
      intro x hx
      rcases mem_append.mp hx with hx | hx
      · exact hkey x hx
      · rw [mem_singleton.mp hx, hd]
    have hruns := runs_of_key hkey' [] (fun x hx => by cases hx)
    rw [append_nil] at hruns
    rw [cons_append, hruns]
    exact output_finalize (inRun_same hrun hd reason)
  · rw [runs_of_key hkey [d] (by simpa using hd)]
    have hout := output_finalize (inRun_other hrun hd reason)
    rw [append_assoc] at hout
    exact hout

lemma output_eq (index : ℤ) (deltas : List Delta) (reason : String) :
    (convert (lines index deltas reason)).output.map Item.toBody =
      (runs (deltas ++ [({} : Delta)])).map itemOf := by
  unfold convert lines
  rw [foldl_append, foldl_map]
  cases deltas with
  | nil => exact output_finalize (inRun_first index {} (some reason))
  | cons d ds =>
    obtain ⟨closed, first, rest, hrun, hkey, htail⟩ :=
      inRun_steps ds (inRun_first index d none) (fun x hx => by cases hx)
    have hout := inRun_finish hrun hkey {} (some reason)
    rw [htail] at hout
    exact hout

lemma terminalOutput_eq (index : ℤ) (deltas : List Delta) (reason : String) :
    terminalOutput (convert (lines index deltas reason)).events =
      (convert (lines index deltas reason)).output := by
  unfold terminalOutput convert lines
  rw [append_cons, foldl_concat]
  simp [processStreamData, finalizeStream, send]

end

end Tokilake.Responses.Output
