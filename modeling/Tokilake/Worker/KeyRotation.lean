import Mathlib.Order.Interval.Finset.Nat
import Tokilake.Lib.Calls
import Tokilake.Lib.Text

/-! # API keys in turn

A model with several keys takes them in turn; one lock (`targetMu`) guards the cursors of all
models, and every lock, read, store and unlock of a call is a step of its own.  Of a target only the
key list is kept: the headers that `buildResolvedTarget` makes of the key are not modelled.

* `InTurn`: the cursor of a model counts its selections;
* `Chosen`: a call that has stored a position returns the key at that position;
* `rotates`: every window of `k` selections of a model uses each of its `k` keys once. -/

namespace Tokilake.Worker.KeyRotation

open Lib.Run Lib.Calls Lib.Text List

/-- Call `call` stored the cursor of `modelName` behind `position`. -/
structure Selection where
  call : ℕ
  modelName : String
  position : ℕ

/-- The cursors behind `targetMu`, and the selections so far. -/
structure Keys where
  owner : Option ℕ := none
  targetKeyNext : String → ℕ := fun _ => 0
  selections : List Selection := []

/-- Where a call of `resolveModelTarget` stands. -/
inductive Phase
  | resolving
  | locking (apiKeys : List String)
  | reading (apiKeys : List String)
  | storing (apiKeys : List String) (index : ℕ)
  | unlocking (selected : String)
  | returned (result : Except String String)

structure Call where
  modelName : String
  phase : Phase

def Call.goto (c : Call) (phase : Phase) : Call := { c with phase }

def start (modelName : String) : Call := ⟨trimSpace modelName, .resolving⟩

variable (targets : String → Option (List String))

/-- A model with at most one key has no cursor. -/
def resolveModelTarget (modelName : String) : Phase :=
  if modelName = "" then .returned (.error "model is required")
  else match targets modelName with
    | none => .returned (.error ("no local target configured for model " ++ modelName))
    | some [] => .returned (.ok "")
    | some [apiKey] => .returned (.ok apiKey)
    | some apiKeys => .locking apiKeys

/-- The steps of `selectTargetAPIKey`. -/
def advance (i : ℕ) (s : Keys) (c : Call) (_ : Unit) : Option (Keys × Call) :=
  match c.phase with
  | .resolving => some (s, c.goto (resolveModelTarget targets c.modelName))
  | .locking apiKeys =>
    if s.owner = none then some ({ s with owner := some i }, c.goto (.reading apiKeys)) else none
  | .reading apiKeys => some (s, c.goto (.storing apiKeys (s.targetKeyNext c.modelName)))
  | .storing apiKeys index =>
    some ({ s with
      targetKeyNext := Function.update s.targetKeyNext c.modelName ((index + 1) % apiKeys.length)
      selections := s.selections ++ [⟨i, c.modelName, index % apiKeys.length⟩] },
      c.goto (.unlocking (apiKeys.getD (index % apiKeys.length) "")))
  | .unlocking selected => some ({ s with owner := none }, c.goto (.returned (.ok selected)))
  | .returned _ => none

/-- The client, with all its calls. -/
def client : System Keys Call String Unit Empty := ⟨start, advance targets, fun _ e => nomatch e⟩

/-- The positions selected for one model, in order. -/
def positions (modelName : String) (s : Keys) : List ℕ :=
  (s.selections.filter fun x => x.modelName = modelName).map Selection.position

/-! ### The cursor -/

/-- The cursor of a model is the number of its selections. -/
def InTurn (s : Keys) : Prop := ∀ modelName apiKeys, targets modelName = some apiKeys →
  ∃ n, positions modelName s = (range n).map (· % apiKeys.length) ∧
    s.targetKeyNext modelName = n % apiKeys.length

def Phase.locked : Phase → Bool
  | .reading _ | .storing _ _ | .unlocking _ => true
  | _ => false

/-- The keys of a call that has not selected yet. -/
def Phase.apiKeys : Phase → Option (List String)
  | .locking apiKeys | .reading apiKeys | .storing apiKeys _ => some apiKeys
  | _ => none

/-- The key that the call returns, at the latest with its next step. -/
def Phase.selected : Phase → Option String
  | .unlocking key | .returned (.ok key) => some key
  | _ => none

lemma phase_of_selected {phase : Phase} {key : String} (h : phase.selected = some key) :
    phase = .unlocking key ∨ phase = .returned (.ok key) := by
  unfold Phase.selected at h
  split at h <;> cases h
  · exact .inl rfl
  · exact .inr rfl

structure Local (i : ℕ) (s : Keys) (c : Call) : Prop where
  target : ∀ apiKeys, c.phase.apiKeys = some apiKeys →
    targets c.modelName = some apiKeys ∧ 2 ≤ apiKeys.length
  owner : c.phase.locked = true → s.owner = some i
  index : ∀ apiKeys index, c.phase = .storing apiKeys index → index = s.targetKeyNext c.modelName
  logged : ∀ apiKeys key, c.phase.selected = some key → targets c.modelName = some apiKeys →
    2 ≤ apiKeys.length → ∃ x ∈ s.selections, x.call = i

variable {targets}

lemma inTurn_store {i : ℕ} {s : Keys} {modelName : String} {apiKeys : List String}
    (h : InTurn targets s)
    (htarget : targets modelName = some apiKeys) : InTurn targets { s with
      targetKeyNext := Function.update s.targetKeyNext modelName
        ((s.targetKeyNext modelName + 1) % apiKeys.length)
      selections := s.selections ++
        [⟨i, modelName, s.targetKeyNext modelName % apiKeys.length⟩] } := by
  intro other keys hkeys
  obtain ⟨n, hpos, hnext⟩ := h other keys hkeys
  by_cases hother : modelName = other
  · subst hother
    obtain rfl := Option.some.inj (htarget.symm.trans hkeys)
    refine ⟨n + 1, ?_, ?_⟩
    · simp [positions, range_succ] at hpos ⊢
      simp [hpos, hnext]
    · simp [hnext]
  · refine ⟨n, ?_, ?_⟩
    · simpa [positions, hother] using hpos
    · simpa [Function.update_of_ne (Ne.symm hother)] using hnext

lemma local_resolve (i : ℕ) (s : Keys) (modelName : String) :
    Local targets i s ⟨modelName, resolveModelTarget targets modelName⟩ := by
  unfold resolveModelTarget
  split_ifs
  · exact ⟨nofun, nofun, nofun, nofun⟩
  split
  · exact ⟨nofun, nofun, nofun, nofun⟩
  · next htarget =>
    exact ⟨nofun, nofun, nofun, fun _ _ _ hkeys hlen => by
      cases htarget.symm.trans hkeys
      simp at hlen⟩
  · next htarget =>
    exact ⟨nofun, nofun, nofun, fun _ _ _ hkeys hlen => by
      cases htarget.symm.trans hkeys
      simp at hlen⟩
  · next apiKeys hnil hone htarget =>
    refine ⟨?_, nofun, nofun, nofun⟩
    rintro _ ⟨⟩
    refine ⟨htarget, ?_⟩
    match apiKeys with
    | [] => exact absurd rfl hnil
    | [key] => exact absurd rfl (hone key)
    | _ :: _ :: _ => simp

lemma eq_of_owner {i j : ℕ} {s s' : Keys} {c c' : Call} (hL : Local targets i s c)
    (hj : s.owner = some j) (hne : i ≠ j) (h : advance targets i s c () = some (s', c')) :
    s' = s := by
  have hfree : c.phase.locked = false := by
    by_contra hlocked
    have howner := hL.owner (by simpa using hlocked)
    exact hne (Option.some.inj (howner.symm.trans hj))
  unfold advance at h
  split at h <;> simp_all [Phase.locked]

/-- Only a store selects. -/
lemma advance_selections {i : ℕ} {s s' : Keys} {c c' : Call}
    (h : advance targets i s c () = some (s', c')) : s'.selections = s.selections ∨
      ∃ apiKeys index, c.phase = .storing apiKeys index ∧
        c' = c.goto (.unlocking (apiKeys.getD (index % apiKeys.length) "")) ∧
        s'.selections = s.selections ++ [⟨i, c.modelName, index % apiKeys.length⟩] := by
  unfold advance at h
  split at h
  · cases h
    exact .inl rfl
  · split_ifs at h
    cases h
    exact .inl rfl
  · cases h
    exact .inl rfl
  · next apiKeys index hphase =>
    cases h
    exact .inr ⟨apiKeys, index, hphase, rfl, rfl⟩
  · cases h
    exact .inl rfl
  · cases h

lemma selections_mono {i : ℕ} {s s' : Keys} {c c' : Call}
    (h : advance targets i s c () = some (s', c')) : s.selections ⊆ s'.selections := by
  rcases advance_selections h with heq | ⟨_, _, -, -, heq⟩ <;> simp [heq]

lemma stable : Stable (client targets) (InTurn targets) (Local targets) where
  start _ _ := ⟨nofun, nofun, nofun, nofun⟩
  own {i s c a s' c'} hI hL h := by
    simp only [client, advance] at h
    split at h
    · cases h
      exact ⟨hI, local_resolve i s c.modelName⟩
    · next apiKeys hphase =>
      split_ifs at h
      cases h
      exact ⟨hI, fun keys hkeys => hL.target keys (by rw [hphase]; exact hkeys), fun _ => rfl,
        nofun, nofun⟩
    · next apiKeys hphase =>
      cases h
      refine ⟨hI, fun keys hkeys => hL.target keys (by rw [hphase]; exact hkeys),
        fun _ => hL.owner (by rw [hphase]; rfl), ?_, nofun⟩
      rintro _ _ ⟨⟩
      rfl
    · next apiKeys index hphase =>
      cases h
      obtain rfl := hL.index apiKeys index hphase
      exact ⟨inTurn_store hI (hL.target apiKeys (by rw [hphase]; rfl)).1, nofun,
        fun _ => hL.owner (by rw [hphase]; rfl), nofun,
        fun _ _ _ _ _ => ⟨_, mem_append_right _ mem_cons_self, rfl⟩⟩
    · next key hphase =>
      cases h
      refine ⟨hI, nofun, nofun, nofun, fun keys key' hkey => ?_⟩
      exact hL.logged keys key (by rw [hphase]; rfl)
    · cases h
  other {i j s c d a s' c'} hI hL hL' hne h := by
    have hlogged (keys : List String) (key : String) (hkey : d.phase.selected = some key)
        (hkeys : targets d.modelName = some keys) (hlen : 2 ≤ keys.length) :
        ∃ x ∈ s'.selections, x.call = j := by
      obtain ⟨x, hx, hcall⟩ := hL'.logged keys key hkey hkeys hlen
      exact ⟨x, selections_mono h hx, hcall⟩
    by_cases hlocked : d.phase.locked = true
    · refine ⟨hL'.target, ?_, ?_, hlogged⟩
      all_goals rw [eq_of_owner hL (hL'.owner hlocked) hne h]
      · exact hL'.owner
      · exact hL'.index
    · refine ⟨hL'.target, fun h => absurd h hlocked, fun apiKeys index hphase => ?_, hlogged⟩
      rw [hphase] at hlocked
      exact absurd rfl hlocked
  env {s e} := nomatch e

/-! ### What a call returns -/

/-- Every selection is one of a call of its own, which returns the key at the position. -/
structure Chosen (targets : String → Option (List String)) (p : Pool Keys Call) : Prop where
  once : (p.shared.selections.map Selection.call).Nodup
  returns : ∀ x ∈ p.shared.selections, ∃ c apiKeys, p.calls[x.call]? = some c ∧
    c.modelName = x.modelName ∧ targets x.modelName = some apiKeys ∧
    x.position < apiKeys.length ∧ c.phase.selected = apiKeys[x.position]?

lemma selected_kept {i : ℕ} {s s' : Keys} {c c' : Call} {key : String}
    (hkey : c.phase.selected = some key) (h : advance targets i s c () = some (s', c')) :
    c'.modelName = c.modelName ∧ c'.phase.selected = some key := by
  unfold advance at h
  split at h <;> simp_all [Phase.selected]
  obtain ⟨-, rfl⟩ := h
  exact ⟨rfl, rfl⟩

/-- A selection stays one of a call that returns its key. -/
lemma Chosen.kept {p : Pool Keys Call} (hp : Chosen targets p) {i : ℕ} {s : Keys} {c c' : Call}
    (hc : p.calls[i]? = some c) (h : advance targets i p.shared c () = some (s, c')) {x : Selection}
    (hx : x ∈ p.shared.selections) : ∃ d apiKeys, (p.calls.set i c')[x.call]? = some d ∧
      d.modelName = x.modelName ∧ targets x.modelName = some apiKeys ∧
      x.position < apiKeys.length ∧ d.phase.selected = apiKeys[x.position]? := by
  obtain ⟨d, apiKeys, hd, hmodel, htarget, hlt, hsel⟩ := hp.returns x hx
  by_cases hi : x.call = i
  · subst hi
    obtain rfl := Option.some.inj (hc.symm.trans hd)
    rw [getElem?_eq_getElem hlt] at hsel
    obtain ⟨hname, hkept⟩ := selected_kept hsel h
    refine ⟨c', apiKeys, getElem?_set_self (List.getElem?_eq_some_iff.mp hc).1, ?_,
      htarget, hlt, ?_⟩
    · rw [hname, hmodel]
    · rw [hkept, getElem?_eq_getElem hlt]
  · refine ⟨d, apiKeys, ?_, hmodel, htarget, hlt, hsel⟩
    rw [getElem?_set_ne (Ne.symm hi), hd]

lemma chosen_step {p q : Pool Keys Call} {e : Event String Unit Empty} (hp : Chosen targets p)
    (hL : Each (Local targets) p) (h : (client targets).step p e = some q) : Chosen targets q := by
  cases e with
  | arrive modelName =>
    cases h
    refine ⟨hp.once, fun x hx => ?_⟩
    obtain ⟨c, apiKeys, hc, hrest⟩ := hp.returns x hx
    exact ⟨c, apiKeys, by rw [getElem?_append_left (List.getElem?_eq_some_iff.mp hc).1, hc], hrest⟩
  | move i a =>
    obtain ⟨c, s, c', hc, ha, rfl⟩ := step_move.mp h
    rcases advance_selections ha with heq | ⟨apiKeys, index, hphase, rfl, heq⟩
    · exact ⟨by rw [heq]; exact hp.once, fun x hx => hp.kept hc ha (heq ▸ hx)⟩
    have hnew : i ∉ p.shared.selections.map Selection.call := by
      rintro hmem
      obtain ⟨x, hx, rfl⟩ := mem_map.mp hmem
      obtain ⟨d, keys, hd, -, -, hlt, hsel⟩ := hp.returns x hx
      obtain rfl := Option.some.inj (hc.symm.trans hd)
      rw [hphase, getElem?_eq_getElem hlt] at hsel
      cases hsel
    obtain ⟨htarget, hlen⟩ := (hL i c hc).target apiKeys (by rw [hphase]; rfl)
    have hlt : index % apiKeys.length < apiKeys.length := Nat.mod_lt _ (by omega)
    refine ⟨?_, fun x hx => ?_⟩
    · rw [heq, map_append, nodup_append]
      refine ⟨hp.once, nodup_singleton _, ?_⟩
      rintro j hj k hk rfl
      obtain rfl : j = i := mem_singleton.mp hk
      exact hnew hj
    rw [heq] at hx
    rcases mem_append.mp hx with hold | hnow
    · exact hp.kept hc ha hold
    · rw [mem_singleton.mp hnow]
      refine ⟨_, apiKeys, getElem?_set_self (List.getElem?_eq_some_iff.mp hc).1, rfl,
        htarget, hlt, ?_⟩
      simp [Call.goto, Phase.selected, getElem?_eq_getElem hlt]
  | env e => exact nomatch e

lemma window_perm {j k n : ℕ} (h : j + k ≤ n) :
    ((((range n).map (· % k)).drop j).take k).Perm (range k) := by
  have hcut : ((range n).drop j).take k = range' j k := by
    apply List.ext_getElem <;> simp
    omega
  have hmod : Multiset.map (· % k) (Finset.Ico j (j + k)).val = _ := Nat.multiset_Ico_map_mod j k
  rw [Nat.Ico_eq_range', Nat.add_sub_cancel_left] at hmod
  rw [← map_drop, ← map_take, hcut]
  exact Multiset.coe_eq_coe.mp hmod

lemma inv_of_run {es : List (Event String Unit Empty)} {p : Pool Keys Call}
    (h : run (client targets).step ⟨{}, []⟩ es = some p) :
    (InTurn targets p.shared ∧ Each (Local targets) p) ∧ Chosen targets p := by
  have hinit : (InTurn targets {} ∧ Each (Local targets) ⟨{}, []⟩) ∧ Chosen targets ⟨{}, []⟩ :=
    ⟨⟨fun _ _ _ => ⟨0, rfl, (Nat.zero_mod _).symm⟩, nofun⟩, nodup_nil, nofun⟩
  refine run_invariant'
    (I := fun p => (InTurn targets p.shared ∧ Each (Local targets) p) ∧ Chosen targets p) ?_ hinit h
  intro p e q hp hstep
  exact ⟨stable.step hp.1 hstep, chosen_step hp.2 hp.1.2 hstep⟩

/-- **Each key in turn**: the positions selected for a model are its keys over and over, whatever
is selected for other models; a call that has selected a position returns the key there, and if the
model has several keys, a call that returns one has selected it. -/
theorem rotates {es : List (Event String Unit Empty)} {p : Pool Keys Call} {modelName : String}
    {apiKeys : List String} (hrun : run (client targets).step ⟨{}, []⟩ es = some p)
    (hkeys : targets modelName = some apiKeys) :
    (∀ j, j + apiKeys.length ≤ (positions modelName p.shared).length →
      (((positions modelName p.shared).drop j).take apiKeys.length).Perm (range apiKeys.length)) ∧
    positions modelName p.shared =
      (range (positions modelName p.shared).length).map (· % apiKeys.length) ∧
    (p.shared.selections.map Selection.call).Nodup ∧
    (∀ x ∈ p.shared.selections, x.modelName = modelName →
      ∃ c key, p.calls[x.call]? = some c ∧ c.modelName = modelName ∧
        apiKeys[x.position]? = some key ∧
        (c.phase = .unlocking key ∨ c.phase = .returned (.ok key))) ∧
    (2 ≤ apiKeys.length → ∀ i c key, p.calls[i]? = some c → c.modelName = modelName →
      c.phase = .returned (.ok key) → ∃ x ∈ p.shared.selections, x.call = i ∧
        x.modelName = modelName ∧ apiKeys[x.position]? = some key) := by
  obtain ⟨⟨hturn, hlocal⟩, hchosen⟩ := inv_of_run hrun
  obtain ⟨n, hpos, -⟩ := hturn modelName apiKeys hkeys
  refine ⟨?_, ?_, hchosen.once, ?_, ?_⟩
  · rw [hpos, length_map, length_range]
    exact fun j => window_perm
  · rw [hpos, length_map, length_range]
  · rintro x hx rfl
    obtain ⟨c, keys, hc, hmodel, htarget, hlt, hsel⟩ := hchosen.returns x hx
    obtain rfl := Option.some.inj (htarget.symm.trans hkeys)
    rw [getElem?_eq_getElem hlt] at hsel ⊢
    exact ⟨c, _, hc, hmodel, rfl, phase_of_selected hsel⟩
  · intro hlen i c key hc hmodel hphase
    have hkey : c.phase.selected = some key := by rw [hphase]; rfl
    obtain ⟨x, hx, rfl⟩ := (hlocal i c hc).logged apiKeys key hkey (hmodel ▸ hkeys) hlen
    obtain ⟨d, keys, hd, hname, htarget, -, hsel⟩ := hchosen.returns x hx
    obtain rfl := Option.some.inj (hc.symm.trans hd)
    rw [← hname, hmodel, hkeys] at htarget
    obtain rfl := Option.some.inj htarget
    exact ⟨x, hx, rfl, by rw [← hname, hmodel], by rw [← hsel, hkey]⟩

/-- Two calls for one model, the second of which waits for the lock. -/
def twoCalls : List (Event String Unit Empty) :=
  [.arrive "gpt", .arrive "gpt ", .move 0 (), .move 1 (), .move 0 (), .move 0 (), .move 0 (),
    .move 0 (), .move 1 (), .move 1 (), .move 1 ()]

theorem rotates_two : ∃ p, run (client fun _ => some ["a", "b"]).step ⟨{}, []⟩ twoCalls = some p ∧
    (((positions "gpt" p.shared).drop 0).take 2).Perm (range 2) := by
  obtain ⟨p, hrun, hle⟩ : ∃ p, run (client fun _ => some ["a", "b"]).step ⟨{}, []⟩ twoCalls =
      some p ∧ 0 + 2 ≤ (positions "gpt" p.shared).length := ⟨_, rfl, Nat.le_refl 2⟩
  exact ⟨p, hrun, (rotates hrun rfl).1 0 hle⟩

end Tokilake.Worker.KeyRotation
