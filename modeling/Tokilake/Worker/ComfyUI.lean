import Tokilake.Lib.Heap
import Tokilake.Lib.Json
import Tokilake.Lib.Text

/-! # Prompts of registered workflows

`BuildPrompt` copies a template by marshalling it and puts the caller's values into the copy.  Go's
maps are references, so all of them are values in one memory; what no path can enter is an atom.

* `built_iff`: when the prompt is the template with these values and the defaults. -/

namespace Tokilake.Worker.ComfyUI

open Lib.Entries Lib.Heap Lib.Json Lib.Text List

/-! ### Workflows -/

structure ComfyUIWorkflowParam where
  key : String
  name : String
  required : Bool := false
  default : Option (Val Value) := none

structure ComfyUIWorkflowDef where
  params : List ComfyUIWorkflowParam
  template : Val Value

structure ComfyUIWorkflowManager where
  memory : Memory String Value
  workflows : List (String × ComfyUIWorkflowDef)

inductive PathError
  | notFound (segment : String)
  | notMap (segment : String) (found : Value)
  | nilMap

inductive BuildError
  | workflowNotFound (workflowID : String)
  | marshalTemplate
  | setParam (name key : String) (err : PathError)
  | requiredMissing (name : String)

def setNestedValue (memory : Memory String Value) (value : Val Value) :
    Val Value → List String → List String → Except PathError (Memory String Value)
  | _, _, [] => .ok memory
  | .atom _, _, [_] => .error .nilMap
  | .map current, _, [part] => .ok (write memory current part value)
  | .atom _, seen, part :: _ :: _ => .error (.notFound (join '.' (seen ++ [part])))
  | .map current, seen, part :: next :: rest =>
    match (cell memory current).lookup part with
    | none => .error (.notFound (join '.' (seen ++ [part])))
    | some (.atom found) => .error (.notMap (join '.' (seen ++ [part])) found)
    | some (.map typed) => setNestedValue memory value (.map typed) (seen ++ [part]) (next :: rest)

def nameToKey (params : List ComfyUIWorkflowParam) : List (String × String) :=
  params.foldl (fun m p => put m p.name p.key) []

def applyParams (keys : List (String × String)) (prompt : Val Value) :
    List (String × Val Value) → Memory String Value → Except BuildError (Memory String Value)
  | [], memory => .ok memory
  | (name, value) :: params, memory =>
    match keys.lookup name with
    | none => applyParams keys prompt params memory
    | some key =>
      match setNestedValue memory value prompt [] (split '.' key) with
      | .error err => .error (.setParam name key err)
      | .ok memory => applyParams keys prompt params memory

def isMissing (params : List (String × Val Value)) (p : ComfyUIWorkflowParam) : Bool :=
  p.required && (params.lookup p.name).isNone && p.default.isNone

def buildPrompt (m : ComfyUIWorkflowManager) (workflowID : String)
    (params : List (String × Val Value)) : Except BuildError (Memory String Value × Val Value) :=
  match m.workflows.lookup workflowID with
  | none => .error (.workflowNotFound workflowID)
  | some wf =>
    match read m.memory (m.memory.length + 1) wf.template with
    | none => .error .marshalTemplate
    | some document =>
      let (memory, prompt) := alloc document m.memory
      match applyParams (nameToKey wf.params) prompt params memory with
      | .error err => .error err
      | .ok memory =>
        match wf.params.find? (isMissing params) with
        | some p => .error (.requiredMissing p.name)
        | none => .ok (memory, prompt)

/-! ### Setting one value -/

variable {memory memory' : Memory String Value} {value : Val Value}

lemma setNestedValue_cons {part : String} {parts : List String} (hparts : parts ≠ [])
    {current : Val Value} {seen : List String}
    (h : setNestedValue memory value current seen (part :: parts) = .ok memory') :
    ∃ a typed, current = .map a ∧ (cell memory a).lookup part = some (.map typed) ∧
      setNestedValue memory value (.map typed) (seen ++ [part]) parts = .ok memory' := by
  obtain ⟨next, rest, rfl⟩ := exists_cons_of_ne_nil hparts
  cases current with
  | atom x => cases h
  | map a =>
    rw [setNestedValue] at h
    split at h
    · cases h
    · cases h
    · rename_i typed hfound
      exact ⟨a, typed, rfl, hfound, h⟩

lemma setNestedValue_ok {last : String} {init seen : List String} {current : Val Value}
    (h : setNestedValue memory value current seen (init ++ [last]) = .ok memory') :
    ∃ a, look memory current init = some (.map a) ∧ memory' = write memory a last value := by
  induction init generalizing current seen with
  | nil =>
    cases current with
    | atom x => cases h
    | map a => exact ⟨a, look_nil _ _, (Except.ok.inj h).symm⟩
  | cons part init ih =>
    obtain ⟨a, typed, rfl, hfound, h⟩ := setNestedValue_cons (by simp) h
    obtain ⟨b, hb, hwrite⟩ := ih h
    exact ⟨b, by rw [look_map_cons, hfound, Option.bind_some, hb], hwrite⟩

/-! ### The names of the parameters -/

lemma nameToKey_concat (params : List ComfyUIWorkflowParam) (p : ComfyUIWorkflowParam) :
    nameToKey (params ++ [p]) = put (nameToKey params) p.name p.key := by
  simp [nameToKey]

lemma lookup_nameToKey {params : List ComfyUIWorkflowParam}
    (hnames : (params.map (·.name)).Nodup) {name key : String} :
    (nameToKey params).lookup name = some key ↔ ∃ p ∈ params, p.name = name ∧ p.key = key := by
  induction params using reverseRecOn with
  | nil => simp [nameToKey]
  | append_singleton params p ih =>
    rw [map_append, nodup_append] at hnames
    obtain ⟨hnames, -, hne⟩ := hnames
    rw [nameToKey_concat, lookup_put]
    split_ifs with hname
    · rw [Option.some_inj]
      constructor
      · rintro rfl
        exact ⟨p, by simp, hname.symm, rfl⟩
      · rintro ⟨q, hq, rfl, rfl⟩
        rcases mem_append.mp hq with hq | hq
        · exact absurd hname (hne _ (mem_map_of_mem hq) _ (by simp))
        · rw [mem_singleton.mp hq]
    · rw [ih hnames]
      constructor
      · rintro ⟨q, hq, h⟩
        exact ⟨q, mem_append_left _ hq, h⟩
      · rintro ⟨q, hq, h⟩
        rcases mem_append.mp hq with hq | hq
        · exact ⟨q, hq, h⟩
        · rw [mem_singleton.mp hq] at h
          exact absurd h.1.symm hname

/-! ### All values of the caller -/

/-- The places of the caller's values, without those of unknown names. -/
def puts (keys : List (String × String)) (params : List (String × Val Value)) :
    List (List String × Val Value) :=
  params.filterMap fun entry => (keys.lookup entry.1).map fun key => (split '.' key, entry.2)

lemma mem_puts {keys : List (String × String)} {params : List (String × Val Value)}
    {g : List String × Val Value} : g ∈ puts keys params ↔
      ∃ name key, (name, g.2) ∈ params ∧ keys.lookup name = some key ∧ g.1 = split '.' key := by
  simp only [puts, mem_filterMap, Option.map_eq_some_iff]
  constructor
  · rintro ⟨⟨name, value⟩, hmem, key, hkey, rfl⟩
    exact ⟨name, key, hmem, hkey, rfl⟩
  · rintro ⟨name, key, hmem, hkey, hg⟩
    exact ⟨(name, g.2), hmem, key, hkey, Prod.ext hg.symm rfl⟩

def KeysApart (keys : List (String × String)) : Prop :=
  ∀ {name name' key key' : String}, keys.lookup name = some key → keys.lookup name' = some key' →
    name ≠ name' → Apart (split '.' key) (split '.' key')

lemma assembled_of_applyParams {n : ℕ} {keys : List (String × String)} {prompt : Val Value}
    {h₀ : Memory String Value} (hkeys : KeysApart keys) {rest : List (String × Val Value)}
    (done : List (String × Val Value)) (hnames : ((done ++ rest).map Prod.fst).Nodup)
    (hvalues : ∀ entry ∈ rest, entry.2.Below n) (hn : n ≤ memory.length)
    (hm : Assembled n h₀ prompt (puts keys done) memory)
    (h : applyParams keys prompt rest memory = .ok memory') :
    Assembled n h₀ prompt (puts keys (done ++ rest)) memory' := by
  induction rest generalizing done memory with
  | nil =>
    obtain rfl := Except.ok.inj h
    rwa [append_nil]
  | cons entry rest ih =>
    obtain ⟨name, value⟩ := entry
    rw [append_cons] at hnames ⊢
    have hvalue : value.Below n := hvalues _ mem_cons_self
    have hrest : ∀ entry ∈ rest, entry.2.Below n := fun e he => hvalues e (mem_cons_of_mem _ he)
    rw [applyParams] at h
    cases hkey : keys.lookup name with
    | none =>
      rw [hkey] at h
      refine ih _ hnames hrest hn ?_ h
      simpa [puts, hkey] using hm
    | some key =>
      rw [hkey] at h
      dsimp only at h
      split at h
      · cases h
      rename_i memory₁ hset
      have hne : split '.' key ≠ [] := by simp [split]
      obtain ⟨init, last, hsplit⟩ := (eq_nil_or_concat' (split '.' key)).resolve_left hne
      rw [hsplit] at hset
      obtain ⟨a, hinit, rfl⟩ := setNestedValue_ok hset
      have hapart : ∀ g ∈ puts keys done, Apart (init ++ [last]) g.1 := by
        intro g hg
        obtain ⟨name', key', hmem, hkey', hpath⟩ := mem_puts.mp hg
        rw [hpath, ← hsplit]
        refine hkeys hkey hkey' ?_
        rintro rfl
        rw [append_assoc, map_append, nodup_append] at hnames
        exact hnames.2.2 name (mem_map_of_mem hmem) name (by simp) rfl
      refine ih _ hnames hrest (by rwa [length_write]) ?_ h
      have hmore := hm.write hn hvalue hinit hapart
      simpa [puts, hkey, hsplit] using hmore

/-! ### The prompt -/

def ComfyUIWorkflowParam.path (p : ComfyUIWorkflowParam) : List String := split '.' p.key

structure WellDeclared (params : List ComfyUIWorkflowParam) : Prop where
  names : (params.map (·.name)).Nodup
  keys : ∀ p ∈ params, ∀ q ∈ params, p.path <+: q.path → p = q

structure Valid (m : ComfyUIWorkflowManager) (wf : ComfyUIWorkflowDef)
    (params : List (String × Val Value)) : Prop where
  closed : ClosedBelow m.memory.length m.memory
  template : wf.template.Below m.memory.length
  values : ∀ entry ∈ params, entry.2.Below m.memory.length
  names : (params.map Prod.fst).Nodup

/-- The template with values and defaults in their places; the template itself is as before. -/
structure Built (m : ComfyUIWorkflowManager) (wf : ComfyUIWorkflowDef)
    (params : List (String × Val Value)) (memory : Memory String Value)
    (prompt : Val Value) : Prop where
  provided : ∀ p ∈ wf.params, ∀ value, params.lookup p.name = some value →
    ∀ r, obs memory prompt (p.path ++ r) = obs m.memory value r
  defaults : ∀ p ∈ wf.params, params.lookup p.name = none → ∀ value, p.default = some value →
    ∀ r, obs memory prompt (p.path ++ r) = obs m.memory value r
  others : ∀ q, (∀ p ∈ wf.params, params.lookup p.name ≠ none ∨ p.default ≠ none → ¬ p.path <+: q) →
    obs memory prompt q = obs m.memory wf.template q
  template : ∀ q, obs memory wf.template q = obs m.memory wf.template q

lemma WellDeclared.keysApart {params : List ComfyUIWorkflowParam} (hd : WellDeclared params) :
    KeysApart (nameToKey params) := by
  intro name name' key key' hkey hkey' hne
  obtain ⟨p, hp, rfl, rfl⟩ := (lookup_nameToKey hd.names).mp hkey
  obtain ⟨q, hq, rfl, rfl⟩ := (lookup_nameToKey hd.names).mp hkey'
  constructor
  · intro hpre
    exact hne (congrArg _ (hd.keys p hp q hq hpre))
  · intro hpre
    exact hne (congrArg _ (hd.keys q hq p hp hpre)).symm

variable {m : ComfyUIWorkflowManager} {wf : ComfyUIWorkflowDef} {params : List (String × Val Value)}
  {workflowID : String} {prompt : Val Value}

lemma assembled_of_buildPrompt (hwf : m.workflows.lookup workflowID = some wf)
    (hd : WellDeclared wf.params) (hv : Valid m wf params)
    (h : buildPrompt m workflowID params = .ok (memory, prompt)) :
    ∃ h₀, Assembled m.memory.length h₀ prompt (puts (nameToKey wf.params) params) memory ∧
      (∀ a < m.memory.length, cell h₀ a = cell m.memory a) ∧
      ∀ q, obs h₀ prompt q = obs m.memory wf.template q := by
  rw [buildPrompt, hwf] at h
  dsimp only at h
  split at h
  · cases h
  rename_i document hread
  have hcopy := alloc_copied document hv.closed
  split at h
  · cases h
  rename_i memory₁ happly
  split at h
  · cases h
  obtain ⟨rfl, rfl⟩ := Prod.mk.inj (Except.ok.inj h)
  have hbelow : ClosedBelow m.memory.length (alloc document m.memory).1 := by
    intro a ha entry hentry
    rw [hcopy.same a ha] at hentry
    exact hv.closed a ha entry hentry
  have hstart := assembled_nil hcopy.closed hcopy.below hbelow hcopy.owned
  refine ⟨(alloc document m.memory).1, ?_, hcopy.same, fun q => ?_⟩
  · exact assembled_of_applyParams hd.keysApart [] hv.names hv.values hcopy.length hstart happly
  · rw [hcopy.obs q, obs_read hread q]

/-- **The prompt of a workflow** is right exactly if the template has the defaults left out. -/
theorem built_iff (hwf : m.workflows.lookup workflowID = some wf) (hd : WellDeclared wf.params)
    (hv : Valid m wf params) (h : buildPrompt m workflowID params = .ok (memory, prompt)) :
    Built m wf params memory prompt ↔
      ∀ p ∈ wf.params, params.lookup p.name = none → ∀ value, p.default = some value →
        ∀ r, obs m.memory wf.template (p.path ++ r) = obs m.memory value r := by
  obtain ⟨h₀, hm, hsame, hcopy⟩ := assembled_of_buildPrompt hwf hd hv h
  -- away from the caller's values the prompt is the template
  have hbeside : ∀ q, (∀ p ∈ wf.params, params.lookup p.name ≠ none → ¬ p.path <+: q) →
      obs memory prompt q = obs m.memory wf.template q := by
    intro q hq
    rw [obs, hm.beside q, ← hcopy q, obs]
    intro g hg
    obtain ⟨name, key, hmem, hkey, hpath⟩ := mem_puts.mp hg
    obtain ⟨p, hp, rfl, rfl⟩ := (lookup_nameToKey hd.names).mp hkey
    rw [hpath]
    refine hq p hp fun hnone => ?_
    exact absurd rfl (bne_iff_ne.mp (lookup_eq_none_iff.mp hnone _ hmem))
  have hleft : ∀ p ∈ wf.params, params.lookup p.name = none → ∀ r,
      obs memory prompt (p.path ++ r) = obs m.memory wf.template (p.path ++ r) := by
    intro p hp hnone r
    refine hbeside _ fun p' hp' hsome => ?_
    have hne : p' ≠ p := by
      rintro rfl
      exact hsome hnone
    have hapart : Apart p'.path p.path :=
      ⟨fun hpre => hne (hd.keys p' hp' p hp hpre), fun hpre => hne (hd.keys p hp p' hp' hpre).symm⟩
    exact hapart.not_prefix_append r
  constructor
  · intro hb p hp hnone value hvalue r
    rw [← hleft p hp hnone r]
    exact hb.defaults p hp hnone value hvalue r
  · intro hdefaults
    refine ⟨fun p hp value hvalue r => ?_, fun p hp hnone value hvalue r => ?_,
      fun q hq => ?_, fun q => ?_⟩
    · have hg : (p.path, value) ∈ puts (nameToKey wf.params) params :=
        mem_puts.mpr ⟨p.name, p.key, mem_of_lookup hvalue,
          (lookup_nameToKey hd.names).mpr ⟨p, hp, rfl, rfl⟩, rfl⟩
      have hbelow := hv.values _ (mem_of_lookup hvalue)
      rw [obs, hm.under _ hg r, look_frame hv.closed hsame r hbelow, obs]
    · rw [hleft p hp hnone r]
      exact hdefaults p hp hnone value hvalue r
    · exact hbeside q fun p hp hsome => hq p hp (Or.inl hsome)
    · refine obs_frame hv.closed (fun a ha => ?_) q hv.template
      rw [hm.frame a ha, hsame a ha]

def document : Tree String Value :=
  .node [("6", .node
    [("inputs", .node [("text", .leaf (.str "a cat")), ("seed", .leaf (.num 1))])])]

def textToImage (text : String) : ComfyUIWorkflowDef where
  params := [{ key := "6.inputs.text", name := "prompt", default := some (.atom (.str text)) },
    { key := "6.inputs.seed", name := "seed" }]
  template := (alloc document []).2

def manager (text : String) : ComfyUIWorkflowManager where
  memory := (alloc document []).1
  workflows := [("txt2img", textToImage text)]

lemma wellDeclared_textToImage (text : String) : WellDeclared (textToImage text).params := by
  have hpaths : ¬ split '.' "6.inputs.text" <+: split '.' "6.inputs.seed" ∧
      ¬ split '.' "6.inputs.seed" <+: split '.' "6.inputs.text" := by
    decide
  constructor
  · simp [textToImage]
  · intro p hp q hq hpre
    simp only [textToImage, mem_cons, not_mem_nil, or_false] at hp hq
    rcases hp with rfl | rfl <;> rcases hq with rfl | rfl
    · rfl
    · exact absurd hpre hpaths.1
    · exact absurd hpre hpaths.2
    · rfl

lemma valid_manager (text : String) (seed : ℕ) :
    Valid (manager text) (textToImage text) [("seed", .atom (.num seed))] := by
  have hcopy := alloc_copied document (h := []) fun a ha => absurd ha (Nat.not_lt_zero a)
  exact ⟨hcopy.closed, hcopy.below, by simp [Val.Below], by simp⟩

/-- With the default in the template as well, the prompt is as declared. -/
theorem built_of_same_default : ∃ memory prompt,
    buildPrompt (manager "a cat") "txt2img" [("seed", .atom (.num 7))] = .ok (memory, prompt) ∧
    Built (manager "a cat") (textToImage "a cat") [("seed", .atom (.num 7))] memory prompt := by
  obtain ⟨memory, prompt, h⟩ : ∃ memory prompt,
      buildPrompt (manager "a cat") "txt2img" [("seed", .atom (.num 7))] = .ok (memory, prompt) :=
    ⟨_, _, rfl⟩
  refine ⟨memory, prompt, h, (built_iff rfl (wellDeclared_textToImage "a cat")
    (valid_manager "a cat" 7) h).mpr ?_⟩
  intro p hp hnone value hvalue r
  simp only [textToImage, mem_cons, not_mem_nil, or_false] at hp
  rcases hp with rfl | rfl
  · cases hvalue
    cases r <;> rfl
  · cases hvalue

/-- The default of a parameter left out is not in the prompt. -/
theorem default_not_applied : ∃ memory prompt,
    buildPrompt (manager "a dog") "txt2img" [("seed", .atom (.num 7))] = .ok (memory, prompt) ∧
    obs memory prompt ["6", "inputs", "text"] = some (some (.str "a cat")) ∧
    obs memory prompt ["6", "inputs", "seed"] = some (some (.num 7)) :=
  ⟨_, _, rfl, rfl, rfl⟩

end Tokilake.Worker.ComfyUI
