import Tokilake.Responses.Output
import Mathlib.Data.List.Dedup
import Mathlib.Algebra.Order.BigOperators.Group.List
import Mathlib.Algebra.Order.Group.Nat
import Mathlib.Algebra.GroupWithZero.Nat

/-! # Whether the output list says what the deltas say

The converter looks at the first tool call of a delta only, takes the arguments of the first
fragment of an item twice, and reads the last chunk as an empty text delta.

* `reassembled_iff`: when the list says all the same what they say. -/

namespace Tokilake.Responses.Reassembly

open Responses.Stream Responses.Stream.Converter Responses.Output

/-! ### What the output list should say -/

structure Call where
  callId : String
  name : String
  arguments : String
  deriving DecidableEq

def call (body : Body) : Call := ⟨body.callId, body.name, body.arguments.getD ""⟩

def text (body : Body) : String := concat (body.content.map Part.text)

def textOf (type : ItemType) (items : List Body) : String :=
  concat ((items.filter fun body => body.type = type).map text)

variable (deltas : List Delta)

def toolCalls : List ToolCall := deltas.flatMap Delta.toolCalls

/-- The indices of the calls. -/
def indices : List ℤ := ((toolCalls deltas).map ToolCall.index).dedup

/-- The call that its fragments make up. -/
def assemble : List ToolCall → Call
  | [] => ⟨"", "", ""⟩
  | tool :: tools =>
    ⟨tool.id, (tool.function.map Function.name).getD "",
      concat ((tool :: tools).map fun tool => (tool.function.map Function.arguments).getD "")⟩

def callOf (index : ℤ) : Call := assemble ((toolCalls deltas).filter fun tool => tool.index = index)

/-- The items say what the deltas say. -/
structure Faithful (items : List Body) (deltas : List Delta) : Prop where
  calls : ((items.filter fun body => body.type = .functionCall).map call).Perm
    ((indices deltas).map (callOf deltas))
  texts : textOf .message items = concat (deltas.map Delta.content)
  reasonings : textOf .reasoning items = concat (deltas.map Delta.reasoningContent)
  nonempty : ∀ body ∈ items, body.type ≠ .functionCall → text body ≠ ""

/-! ### The streams for which it does -/

def kind (run : List Delta) : ItemType := (run.head?.map getResponseType).getD .message

def callRuns : List (List Delta) := (runs deltas).filter fun run => kind run = .functionCall

def kept : List Delta → Call
  | [] => ⟨"", "", ""⟩
  | first :: rest =>
    ⟨if (firstFunction first).isSome then (first.toolCalls.head?.map ToolCall.id).getD "" else "",
      ((firstFunction first).map Function.name).getD "",
      fragment first ++ concat ((first :: rest).map fragment)⟩

/-- A run of tool-call deltas has the index of the first. -/
def runIndex (run : List Delta) : ℤ := (run.head?.map fun d => (key d).2).getD 0

/-- One run for each call, with no arguments in its first delta, and text in the text deltas only. -/
structure Clean (deltas : List Delta) : Prop where
  oneRun : ((callRuns deltas).map runIndex).Nodup
  noFirst : ∀ run ∈ callRuns deltas, ∀ first ∈ run.head?, fragment first = ""
  named : ∀ run ∈ callRuns deltas, ∀ first ∈ run.head?, ∀ tool ∈ first.toolCalls,
    tool.function = none → tool.id = ""
  content : ∀ d ∈ deltas, getResponseType d ≠ .message → d.content = ""
  reasoning : ∀ d ∈ deltas, getResponseType d = .functionCall → d.reasoningContent = ""
  messages : ∀ run ∈ runs deltas, kind run = .message → concat (run.map Delta.content) ≠ ""

/-! ### Texts -/

lemma concat_flatten (runs : List (List String)) :
    concat (runs.map concat) = concat runs.flatten := by
  induction runs with
  | nil => rfl
  | cons run runs ih => rw [List.flatten_cons, concat_append, ← ih]; rfl

lemma concat_eq_empty {l : List String} : concat l = "" ↔ ∀ s ∈ l, s = "" := by
  induction l with
  | nil => simp
  | cons s ss ih => simp [ih]

lemma length_concat_filter {α : Type} (f : α → String) (p : α → Bool) (l : List α) :
    (concat (l.map f)).length =
      (concat ((l.filter p).map f)).length + (concat ((l.filter fun a => !p a).map f)).length := by
  induction l with
  | nil => rfl
  | cons a l ih => cases hp : p a <;> simp [hp, ih] <;> omega

lemma concat_filter_eq_iff {α : Type} (f : α → String) (p : α → Bool) (l : List α) :
    concat ((l.filter p).map f) = concat (l.map f) ↔ ∀ a ∈ l, p a = false → f a = "" := by
  constructor
  · intro h
    have hlen := length_concat_filter f p l
    rw [← h] at hlen
    have hrest : concat ((l.filter fun a => !p a).map f) = "" := by
      rw [← String.length_eq_zero_iff]
      omega
    intro a ha hp
    refine concat_eq_empty.mp hrest _ (List.mem_map_of_mem (List.mem_filter.mpr ⟨ha, ?_⟩))
    rw [hp]
    rfl
  · intro h
    induction l with
    | nil => rfl
    | cons a l ih =>
      have ih := ih fun b hb => h b (List.mem_cons_of_mem a hb)
      cases hp : p a with
      | false => simp [hp, ih, h a List.mem_cons_self hp]
      | true => simp [hp, ih]

/-! ### Runs -/

section
variable {deltas run : List Delta}

section

variable (h : run ∈ runs deltas)
include h

lemma exists_of_mem_runs : ∃ first rest, run = first :: rest ∧ ∀ d ∈ run, key d = key first := by
  have hchain := List.isChain_of_mem_splitBy h
  cases run with
  | nil => exact absurd rfl (List.ne_nil_of_mem_splitBy h)
  | cons first rest =>
    refine ⟨first, rest, rfl, fun d hd => ?_⟩
    rcases List.mem_cons.mp hd with rfl | hd
    · rfl
    · have hchain' := hchain.imp fun d d' h => of_decide_eq_true h
      have hpair := List.isChain_iff_pairwise.mp hchain'
      exact (List.rel_of_pairwise_cons hpair hd).symm

lemma kind_of_mem {d : Delta} (hd : d ∈ run) : getResponseType d = kind run := by
  obtain ⟨first, rest, rfl, hkey⟩ := exists_of_mem_runs h
  exact congrArg Prod.fst (hkey d hd)

lemma itemOf_type : (itemOf run).type = kind run := by
  obtain ⟨first, rest, rfl, -⟩ := exists_of_mem_runs h
  have hkind : kind (first :: rest) = getResponseType first := rfl
  rw [hkind]
  cases hfirst : getResponseType first with
  | message | reasoning => simp [hfirst, newBody]
  | functionCall =>
    obtain ⟨tool, tools, htools⟩ := head_of_functionCall hfirst
    cases hf : tool.function with
    | none | some f => simp [hfirst, newBody, htools, hf]

lemma text_message (hkind : kind run = .message) :
    text (itemOf run) = concat (run.map Delta.content) := by
  obtain ⟨first, rest, rfl, -⟩ := exists_of_mem_runs h
  have hfirst : getResponseType first = .message := hkind
  simp [text, hfirst]

lemma text_reasoning (hkind : kind run = .reasoning) :
    text (itemOf run) = concat (run.map Delta.reasoningContent) := by
  obtain ⟨first, rest, rfl, -⟩ := exists_of_mem_runs h
  have hfirst : getResponseType first = .reasoning := hkind
  simp [text, hfirst]

end

lemma foldl_extend (run : List Delta) (arguments : Option String) :
    (run.foldl extend arguments).getD "" = arguments.getD "" ++ concat (run.map fragment) := by
  induction run generalizing arguments with
  | nil => simp
  | cons d run ih =>
    rw [List.foldl_cons, ih, List.map_cons, concat, ← String.append_assoc]
    congr 1
    cases hf : firstFunction d with
    | none | some f => simp [extend, fragment, hf]

lemma call_itemOf (h : run ∈ runs deltas) (hkind : kind run = .functionCall) :
    call (itemOf run) = kept run := by
  obtain ⟨first, rest, rfl, -⟩ := exists_of_mem_runs h
  have hfirst : getResponseType first = .functionCall := hkind
  obtain ⟨tool, tools, htools⟩ := head_of_functionCall hfirst
  have hargs := foldl_extend (first :: rest) (newBody first .functionCall).arguments
  cases hf : tool.function with
  | none | some f =>
    simp [newBody, htools, hf] at hargs
    simp [call, hfirst, newBody, htools, hf, kept, firstFunction, fragment, hargs]

lemma flatten_filter {α : Type} (p : α → Bool) (q : List α → Bool) (l : List (List α))
    (h : ∀ run ∈ l, ∀ a ∈ run, p a = q run) : (l.filter q).flatten = l.flatten.filter p := by
  induction l with
  | nil => rfl
  | cons run l ih =>
    have ih := ih fun r hr => h r (List.mem_cons_of_mem run hr)
    have hrun := h run List.mem_cons_self
    rw [List.flatten_cons, List.filter_append, ← ih]
    cases hq : q run with
    | true =>
      have hall := List.filter_eq_self.mpr fun a ha => (hrun a ha).trans hq
      rw [List.filter_cons_of_pos hq, List.flatten_cons, hall]
    | false =>
      have hnone : run.filter p = [] :=
        List.filter_eq_nil_iff.mpr fun a ha => by rw [hrun a ha, hq]; exact Bool.false_ne_true
      rw [List.filter_cons_of_neg (by rw [hq]; exact Bool.false_ne_true), hnone, List.nil_append]

lemma flatten_runs_filter (type : ItemType) (deltas : List Delta) :
    ((runs deltas).filter fun run => kind run = type).flatten =
      deltas.filter fun d => getResponseType d = type := by
  rw [flatten_filter (fun d => decide (getResponseType d = type)) _ _ fun run hrun d hd => by
    rw [kind_of_mem hrun hd], runs, List.flatten_splitBy]

lemma filter_items (type : ItemType) (deltas : List Delta) :
    ((runs deltas).map itemOf).filter (fun body => body.type = type) =
      ((runs deltas).filter fun run => kind run = type).map itemOf := by
  rw [List.filter_map]
  refine congrArg (List.map itemOf) (List.filter_congr fun run hrun => ?_)
  rw [Function.comp, itemOf_type hrun]

lemma textOf_items (type : ItemType) (f : Delta → String) (deltas : List Delta)
    (h : ∀ run ∈ runs deltas, kind run = type → text (itemOf run) = concat (run.map f)) :
    textOf type ((runs deltas).map itemOf) =
      concat ((deltas.filter fun d => getResponseType d = type).map f) := by
  have htext : ((runs deltas).filter fun run => kind run = type).map (text ∘ itemOf) =
      ((runs deltas).filter fun run => kind run = type).map (concat ∘ List.map f) := by
    refine List.map_congr_left fun run hrun => ?_
    obtain ⟨hmem, hkind⟩ := List.mem_filter.mp hrun
    exact h run hmem (of_decide_eq_true hkind)
  unfold textOf
  rw [filter_items, List.map_map, htext, ← List.map_map, concat_flatten, ← List.map_flatten,
    flatten_runs_filter]

lemma calls_items (deltas : List Delta) :
    ((((runs deltas).map itemOf).filter fun body => body.type = .functionCall).map call) =
      (callRuns deltas).map kept := by
  rw [filter_items, List.map_map]
  refine List.map_congr_left fun run hrun => ?_
  obtain ⟨hmem, hkind⟩ := List.mem_filter.mp hrun
  exact call_itemOf hmem (of_decide_eq_true hkind)

/-! ### Calls -/

/-- The call that the deltas of one run make up. -/
def ownCall (run : List Delta) : Call := assemble (run.flatMap Delta.toolCalls)

lemma toolCalls_eq (deltas : List Delta) :
    toolCalls deltas = (callRuns deltas).flatMap fun run => run.flatMap Delta.toolCalls := by
  have hcalls : (deltas.filter fun d => getResponseType d = .functionCall).flatMap Delta.toolCalls =
      deltas.flatMap Delta.toolCalls := by
    induction deltas with
    | nil => rfl
    | cons d deltas ih =>
      by_cases hd : getResponseType d = .functionCall
      · rw [List.filter_cons_of_pos (by simpa using hd), List.flatMap_cons, List.flatMap_cons, ih]
      · rw [List.filter_cons_of_neg (by simpa using hd), List.flatMap_cons, toolCalls_of_ne hd, ih,
          List.nil_append]
  rw [toolCalls, ← hcalls, ← flatten_runs_filter, callRuns, List.flatten_eq_flatMap,
    List.flatMap_assoc]
  rfl

lemma filter_flatMap_of_nodup {α β ι : Type} [DecidableEq ι] {l : List β} {f : β → List α}
    {p : α → ι} {q : β → ι} (h : ∀ b ∈ l, ∀ a ∈ f b, p a = q b) (hnodup : (l.map q).Nodup) {b : β}
    (hb : b ∈ l) : (l.flatMap f).filter (fun a => p a = q b) = f b := by
  have hother : ∀ l' ⊆ l, q b ∉ l'.map q → (l'.flatMap f).filter (fun a => p a = q b) = [] := by
    intro l' hsub hnot
    rw [List.filter_eq_nil_iff]
    intro a ha heq
    obtain ⟨c, hc, hac⟩ := List.mem_flatMap.mp ha
    refine hnot (List.mem_map.mpr ⟨c, hc, ?_⟩)
    rw [← h c (hsub hc) a hac, of_decide_eq_true heq]
  obtain ⟨before, after, rfl⟩ := List.append_of_mem hb
  rw [List.map_append, List.map_cons, List.nodup_middle, List.nodup_cons, List.mem_append,
    not_or] at hnodup
  have hown : (f b).filter (fun a => p a = q b) = f b :=
    List.filter_eq_self.mpr fun a ha => decide_eq_true (h b hb a ha)
  rw [List.flatMap_append, List.flatMap_cons, List.filter_append, List.filter_append, hown,
    hother before (by simp) hnodup.1.1, hother after (by simp) hnodup.1.2, List.nil_append,
    List.append_nil]

lemma eq_of_sum_eq {α : Type} {l : List α} {f g : α → ℕ} (h : ∀ a ∈ l, f a ≤ g a)
    (hsum : (l.map f).sum = (l.map g).sum) : ∀ a ∈ l, f a = g a := by
  intro a ha
  by_contra hne
  exact hsum.not_lt (List.sum_lt_sum f g h ⟨a, ha, lt_of_le_of_ne (h a ha) hne⟩)

/-- With one tool call a delta, the calls that were kept are those of the runs but for the first
fragment. -/
lemma kept_eq (hone : ∀ d ∈ run, d.toolCalls.length ≤ 1) (h : run ∈ runs deltas)
    (hkind : kind run = .functionCall) : ∃ first tool, run.head? = some first ∧
      first.toolCalls = [tool] ∧ kept run = ⟨if tool.function.isSome then tool.id else "",
        (ownCall run).name, fragment first ++ (ownCall run).arguments⟩ ∧
      (ownCall run).callId = tool.id := by
  obtain ⟨first, rest, rfl, -⟩ := exists_of_mem_runs h
  obtain ⟨tool, tools, htools⟩ := head_of_functionCall (d := first) hkind
  have hnone : tools = [] := by simpa [htools] using hone first List.mem_cons_self
  subst hnone
  have hfragments : ∀ {ds : List Delta}, (∀ d ∈ ds, d.toolCalls.length ≤ 1) →
      concat ((ds.flatMap Delta.toolCalls).map fun tool =>
        (tool.function.map Function.arguments).getD "") = concat (ds.map fragment) := by
    intro ds hds
    induction ds with
    | nil => rfl
    | cons d ds ih =>
      have hd : concat (d.toolCalls.map fun tool =>
          (tool.function.map Function.arguments).getD "") = fragment d := by
        have hlen := hds d List.mem_cons_self
        rcases hcalls : d.toolCalls with _ | ⟨t, _ | ⟨t', ts⟩⟩
        · simp [fragment, firstFunction, hcalls]
        · simp [fragment, firstFunction, hcalls]
        · simp [hcalls] at hlen
      rw [List.flatMap_cons, List.map_append, concat_append, hd,
        ih fun d' hd' => hds d' (List.mem_cons_of_mem d hd')]
      rfl
  have hargs := hfragments hone
  have hown : (first :: rest).flatMap Delta.toolCalls = tool :: rest.flatMap Delta.toolCalls := by
    rw [List.flatMap_cons, htools, List.singleton_append]
  rw [hown] at hargs
  refine ⟨first, tool, rfl, htools, ?_, ?_⟩
  · rw [ownCall, hown, assemble, kept, ← hargs]
    simp [firstFunction, htools]
  · rw [ownCall, hown, assemble]

lemma mem_of_callRuns (h : run ∈ callRuns deltas) :
    run ∈ runs deltas ∧ kind run = .functionCall ∧ ∀ d ∈ run, d ∈ deltas := by
  obtain ⟨hrun, hkind⟩ := List.mem_filter.mp h
  refine ⟨hrun, of_decide_eq_true hkind, fun d hd => ?_⟩
  have hflat : (runs deltas).flatten = deltas := List.flatten_splitBy ..
  exact hflat ▸ List.mem_flatten.mpr ⟨run, hrun, hd⟩

section

variable (hone : ∀ d ∈ deltas, d.toolCalls.length ≤ 1)
include hone

lemma runIndex_eq (h : run ∈ callRuns deltas) :
    ∀ tool ∈ run.flatMap Delta.toolCalls, tool.index = runIndex run := by
  obtain ⟨hrun, -, hmem⟩ := mem_of_callRuns h
  obtain ⟨first, rest, rfl, hkey⟩ := exists_of_mem_runs hrun
  intro tool htool
  obtain ⟨d, hd, htool⟩ := List.mem_flatMap.mp htool
  have hlen := hone d (hmem d hd)
  have hindex : (key d).2 = tool.index := by
    rcases hcalls : d.toolCalls with _ | ⟨t, _ | ⟨t', ts⟩⟩
    · simp [hcalls] at htool
    · rw [hcalls, List.mem_singleton] at htool
      simp [key, hcalls, htool]
    · simp [hcalls] at hlen
  rw [← hindex, hkey d hd]
  rfl

lemma indices_perm : (indices deltas).Perm ((callRuns deltas).map runIndex).dedup := by
  refine (List.perm_ext_iff_of_nodup (List.nodup_dedup _) (List.nodup_dedup _)).mpr fun i => ?_
  rw [List.mem_dedup, List.mem_dedup, List.mem_map, List.mem_map, toolCalls_eq]
  constructor
  · rintro ⟨tool, htool, rfl⟩
    obtain ⟨run, hrun, htool⟩ := List.mem_flatMap.mp htool
    exact ⟨run, hrun, (runIndex_eq hone hrun tool htool).symm⟩
  · rintro ⟨run, hrun, rfl⟩
    obtain ⟨hmem, hkind, hdeltas⟩ := mem_of_callRuns hrun
    obtain ⟨first, tool, hfirst, htool, -⟩ := kept_eq (fun d hd => hone d (hdeltas d hd)) hmem hkind
    have hown : tool ∈ run.flatMap Delta.toolCalls :=
      List.mem_flatMap.mpr ⟨first, List.mem_of_mem_head? hfirst, by simp [htool]⟩
    exact ⟨tool, List.mem_flatMap.mpr ⟨run, hrun, hown⟩, runIndex_eq hone hrun tool hown⟩

/-- If each index has one run, the calls are those of the runs. -/
lemma calls_perm (hnodup : ((callRuns deltas).map runIndex).Nodup) :
    ((indices deltas).map (callOf deltas)).Perm ((callRuns deltas).map ownCall) := by
  have hindices := indices_perm hone
  rw [hnodup.dedup] at hindices
  refine (hindices.map (callOf deltas)).trans (List.Perm.of_eq ?_)
  rw [List.map_map]
  refine List.map_congr_left fun run hrun => ?_
  rw [Function.comp, callOf, toolCalls_eq, ownCall,
    filter_flatMap_of_nodup (fun _ h => runIndex_eq hone h) hnodup hrun]

lemma calls_iff : ((callRuns deltas).map kept).Perm ((indices deltas).map (callOf deltas)) ↔
    ((callRuns deltas).map runIndex).Nodup ∧
    (∀ run ∈ callRuns deltas, ∀ first ∈ run.head?, fragment first = "") ∧
    ∀ run ∈ callRuns deltas, ∀ first ∈ run.head?, ∀ tool ∈ first.toolCalls,
      tool.function = none → tool.id = "" := by
  have hkept (run : List Delta) (h : run ∈ callRuns deltas) :=
    kept_eq (fun d hd => hone d ((mem_of_callRuns h).2.2 d hd)) (mem_of_callRuns h).1
      (mem_of_callRuns h).2.1
  constructor
  · intro hperm
    have hnodup : ((callRuns deltas).map runIndex).Nodup := by
      have hlen := hperm.length_eq
      rw [List.length_map, List.length_map, (indices_perm hone).length_eq] at hlen
      have hdedup := (List.dedup_sublist ((callRuns deltas).map runIndex)).eq_of_length
        (by rw [List.length_map, hlen])
      exact hdedup ▸ List.nodup_dedup _
    have hcalls := hperm.trans (calls_perm hone hnodup)
    -- nothing is lost, so the sums of the lengths are the same
    have hsum (size : Call → ℕ) : ((callRuns deltas).map (size ∘ kept)).sum =
        ((callRuns deltas).map (size ∘ ownCall)).sum := by
      rw [← List.map_map, ← List.map_map]
      exact (hcalls.map size).sum_eq
    refine ⟨hnodup, fun run hrun first hfirst => ?_, fun run hrun first hfirst tool htool hf => ?_⟩
    · have hargs := eq_of_sum_eq (fun run hrun => ?_)
        (hsum fun c => c.arguments.length).symm run hrun
      · obtain ⟨first', tool, hfirst', -, heq, -⟩ := hkept run hrun
        obtain rfl := Option.some.inj (hfirst'.symm.trans hfirst)
        rw [Function.comp, Function.comp, heq, String.length_append] at hargs
        rw [← String.length_eq_zero_iff]
        omega
      · obtain ⟨first', tool, -, -, heq, -⟩ := hkept run hrun
        simp [heq]
    · have hids := eq_of_sum_eq (fun run hrun => ?_) (hsum fun c => c.callId.length) run hrun
      · obtain ⟨first', tool', hfirst', htools, heq, hid⟩ := hkept run hrun
        obtain rfl := Option.some.inj (hfirst'.symm.trans hfirst)
        obtain rfl : tool = tool' := by simpa [htools] using htool
        simp only [Function.comp, heq, hid, hf] at hids
        rw [← String.length_eq_zero_iff, ← hids]
        rfl
      · obtain ⟨first', tool', -, -, heq, hid⟩ := hkept run hrun
        simp only [Function.comp, heq, hid]
        split_ifs <;> simp
  · rintro ⟨hnodup, hfirst, hnamed⟩
    refine (List.Perm.of_eq ?_).trans (calls_perm hone hnodup).symm
    refine List.map_congr_left fun run hrun => ?_
    obtain ⟨first, tool, hhead, htools, heq, hid⟩ := hkept run hrun
    have hcallId : (if tool.function.isSome then tool.id else "") = (ownCall run).callId := by
      cases hf : tool.function with
      | some f => exact hid.symm
      | none => rw [hid, hnamed run hrun first hhead tool (by simp [htools]) hf]; rfl
    rw [heq, hcallId, hfirst run hrun first hhead, String.empty_append]

end

lemma reasoning_ne_empty (h : run ∈ runs deltas) (hkind : kind run = .reasoning) :
    concat (run.map Delta.reasoningContent) ≠ "" := by
  obtain ⟨first, rest, rfl, -⟩ := exists_of_mem_runs h
  have hfirst : getResponseType first = .reasoning := hkind
  intro hempty
  have htext := concat_eq_empty.mp hempty _ (List.mem_map_of_mem List.mem_cons_self)
  unfold getResponseType at hfirst
  split_ifs at hfirst with htools hne
  exact hne htext

variable (deltas)

lemma nonempty_iff :
    (∀ body ∈ (runs deltas).map itemOf, body.type ≠ .functionCall → text body ≠ "") ↔
      ∀ run ∈ runs deltas, kind run = .message → concat (run.map Delta.content) ≠ "" := by
  constructor
  · intro h run hrun hkind
    rw [← text_message hrun hkind]
    refine h _ (List.mem_map_of_mem hrun) ?_
    rw [itemOf_type hrun, hkind]
    exact nofun
  · intro h body hbody htype
    obtain ⟨run, hrun, rfl⟩ := List.mem_map.mp hbody
    rw [itemOf_type hrun] at htype
    cases hkind : kind run with
    | message => rw [text_message hrun hkind]; exact h run hrun hkind
    | reasoning => rw [text_reasoning hrun hkind]; exact reasoning_ne_empty hrun hkind
    | functionCall => exact absurd hkind htype

lemma texts_iff : textOf .message ((runs deltas).map itemOf) = concat (deltas.map Delta.content) ↔
      ∀ d ∈ deltas, getResponseType d ≠ .message → d.content = "" := by
  rw [textOf_items .message Delta.content deltas fun run hrun => text_message hrun,
    concat_filter_eq_iff]
  simp

lemma reasonings_iff :
    textOf .reasoning ((runs deltas).map itemOf) = concat (deltas.map Delta.reasoningContent) ↔
      ∀ d ∈ deltas, getResponseType d = .functionCall → d.reasoningContent = "" := by
  rw [textOf_items .reasoning Delta.reasoningContent deltas fun run hrun => text_reasoning hrun,
    concat_filter_eq_iff]
  refine forall₂_congr fun d hd => ?_
  cases hkind : getResponseType d with
  | functionCall | reasoning => simp
  | message =>
    -- a text delta has no reasoning
    have hempty : d.reasoningContent = "" := by
      unfold getResponseType at hkind
      split_ifs at hkind with htools hne
      exact not_not.mp hne
    simp [hempty]

lemma faithful_items_iff (hone : ∀ d ∈ deltas, d.toolCalls.length ≤ 1) :
    Faithful ((runs deltas).map itemOf) deltas ↔ Clean deltas := by
  constructor
  · rintro ⟨hcalls, htexts, hreasonings, hnonempty⟩
    rw [calls_items, calls_iff hone] at hcalls
    exact ⟨hcalls.1, hcalls.2.1, hcalls.2.2, (texts_iff deltas).mp htexts,
      (reasonings_iff deltas).mp hreasonings, (nonempty_iff deltas).mp hnonempty⟩
  · rintro ⟨honeRun, hfirst, hnamed, hcontent, hreasoning, hmessages⟩
    refine ⟨?_, (texts_iff deltas).mpr hcontent, (reasonings_iff deltas).mpr hreasoning,
      (nonempty_iff deltas).mpr hmessages⟩
    rw [calls_items, calls_iff hone]
    exact ⟨honeRun, hfirst, hnamed⟩

variable {deltas}

lemma faithful_append_empty (items : List Body) (deltas : List Delta) :
    Faithful items (deltas ++ [({} : Delta)]) ↔ Faithful items deltas := by
  have hcalls : toolCalls (deltas ++ [({} : Delta)]) = toolCalls deltas := by simp [toolCalls]
  have hindices : indices (deltas ++ [({} : Delta)]) = indices deltas := by
    rw [indices, hcalls, indices]
  have hof : callOf (deltas ++ [({} : Delta)]) = callOf deltas := by
    funext index
    rw [callOf, hcalls, callOf]
  have htexts : concat ((deltas ++ [({} : Delta)]).map Delta.content) =
      concat (deltas.map Delta.content) := by simp
  have hreasonings : concat ((deltas ++ [({} : Delta)]).map Delta.reasoningContent) =
      concat (deltas.map Delta.reasoningContent) := by simp
  constructor
  · rintro ⟨h₁, h₂, h₃, h₄⟩
    rw [hindices, hof] at h₁
    exact ⟨h₁, h₂.trans htexts, h₃.trans hreasonings, h₄⟩
  · rintro ⟨h₁, h₂, h₃, h₄⟩
    rw [← hindices, ← hof] at h₁
    exact ⟨h₁, h₂.trans htexts.symm, h₃.trans hreasonings.symm, h₄⟩

/-- A call with its arguments in the second fragment, and a text. -/
def callAndText : List Delta :=
  [{ toolCalls := [⟨0, "call_a", some ⟨"get_time", ""⟩⟩] },
    { toolCalls := [⟨0, "", some ⟨"", "\x7b\x7d"⟩⟩] }, { content := "ok" }]

def oneCall : List Delta := [{ toolCalls := [⟨0, "call_a", some ⟨"get_time", "\x7b\x7d"⟩⟩] }]

end

end Tokilake.Responses.Reassembly
