import Tokilake.Gateway.Control

/-! # The model list of a worker in the index

The handler of the API writes the models of a registration and of a heartbeat into the worker's
channel, joined with commas.

* `models_mirrored_iff`: when the index has the list acknowledged last. -/

namespace Tokilake.Gateway.WorkerModels

open Lib Lib.Run Gateway.Registry Gateway.Control Text
open Core.Slots (int32)

inductive Message
  | register (req : Option RegisterRequest)
  | heartbeat (currentModels : Option (List String))
  | modelsSync (models : Option (List String))

/-- `last` is a history: the last list that was acknowledged and not empty. -/
structure State where
  authenticated : Bool
  workerRegistered : Bool := false
  workerId : ℤ := 0
  info : Option WorkerInfo := none
  index : ChannelIndex
  last : Option (List String) := none

variable (s : State)

def State.ack (message : String) : Reply :=
  .ack message ((s.info.map WorkerInfo.ns).getD "") ((s.info.map WorkerInfo.workerId).getD 0)
    ((s.info.map WorkerInfo.channelId).getD 0)

def State.register (req : RegisterRequest) : State :=
  let channelId := int32 (int32 s.index.channelCount + 1)
  { s with
    workerRegistered := true
    workerId := channelId
    info := some ⟨channelId, channelId, req.ns, effectiveGroup req.group, req.models,
      req.backendType, 1⟩
    index := s.index.upsert (workerChannel channelId req) }

def State.setModels (models : List String) : State :=
  if models = [] then s
  else match s.index.get s.workerId with
    | none => s
    | some ch =>
      if ch.models ≠ join ',' models then
        { s with index := s.index.upsert { ch with models := join ',' models } }
      else s

def handle : Message → Option Reply × State
  | .register req =>
    if s.authenticated = false then (some (.error "not_authenticated" "auth required"), s)
    else if s.workerRegistered then
      (some (.error "register_already_completed" "already handled"), s)
    else match req with
      | none => (none, s)
      | some req =>
        if trimSpace req.ns = "" then
          (some (.error "namespace_required" "namespace is required"), s)
        else
          let t := s.register req
          (some (.ack "register_ok" req.ns t.workerId t.workerId), t)
  | .heartbeat models =>
    if s.authenticated = false then (some (.error "not_authenticated" "auth required"), s)
    else if s.workerRegistered = false then (some (.error "not_registered" "register required"), s)
    else match models with
      | none => (none, s)
      | some models => (some (s.ack "heartbeat_ok"), s.setModels models)
  | .modelsSync _ =>
    if s.authenticated = false then (some (.error "not_authenticated" "auth required"), s)
    else if s.workerRegistered = false then (some (.error "not_registered" "register required"), s)
    else (some (s.ack "models_sync_ok"), s)

/-! ### What was acknowledged -/

def Message.models : Message → List String
  | .register req => (req.map RegisterRequest.models).getD []
  | .heartbeat models => models.getD []
  | .modelsSync models => models.getD []

def Counts (msg : Message) : Prop :=
  (∃ reply ∈ (handle s msg).1, reply.isError = false) ∧ msg.models ≠ []

instance (s : State) (msg : Message) : Decidable (Counts s msg) :=
  inferInstanceAs (Decidable (_ ∧ _))

def step (msg : Message) : Option State :=
  some { (handle s msg).2 with last := if Counts s msg then some msg.models else s.last }

def State.indexed : Option (List String) :=
  (s.index.get s.workerId).map fun ch => split ',' ch.models

def Mirrors : Prop := ∀ models, s.last = some models → s.indexed = some models

/-- A list has names without a comma; a `models_sync` brings the list the index has. -/
def Harmless (msg : Message) : Prop :=
  Counts s msg → match msg with
    | .modelsSync _ => s.indexed = some msg.models
    | _ => ∀ model ∈ msg.models, ',' ∉ model.toList

/-! ### One message -/

variable {s t : State} {msg : Message}

lemma handle_cases (s : State) (msg : Message) : ((handle s msg).2 = s ∧
      (Counts s msg → s.workerRegistered = true ∧ ∃ models, msg = .modelsSync models)) ∨
    (∃ req, msg = .register (some req) ∧ s.workerRegistered = false ∧
      (handle s msg).2 = s.register req) ∨
    (∃ models, msg = .heartbeat (some models) ∧ s.workerRegistered = true ∧
      (handle s msg).2 = s.setModels models ∧ (models ≠ [] → Counts s msg)) := by
  cases msg with
  | register req =>
    simp only [Counts, handle]
    by_cases hauth : s.authenticated = false
    · exact .inl (by simp [hauth])
    by_cases hreg : s.workerRegistered = true
    · exact .inl (by simp [hauth, hreg])
    cases req with
    | none => exact .inl (by simp [hauth, hreg])
    | some req =>
      by_cases hns : trimSpace req.ns = ""
      · exact .inl (by simp [hauth, hreg, hns])
      · exact .inr (.inl ⟨req, rfl, by simpa using hreg, by simp [hauth, hreg, hns]⟩)
  | heartbeat models =>
    simp only [Counts, handle]
    by_cases hauth : s.authenticated = false
    · exact .inl (by simp [hauth])
    by_cases hreg : s.workerRegistered = false
    · exact .inl (by simp [hauth, hreg])
    cases models with
    | none => exact .inl (by simp [hauth, hreg])
    | some models =>
      exact .inr (.inr ⟨models, rfl, by simpa using hreg,
        by simp [hauth, hreg, State.ack, Message.models]⟩)
  | modelsSync models =>
    simp only [Counts, handle]
    by_cases hauth : s.authenticated = false
    · exact .inl (by simp [hauth])
    by_cases hreg : s.workerRegistered = false
    · exact .inl (by simp [hauth, hreg])
    · exact .inl (by simp [hauth, hreg])

structure Sane (s : State) : Prop where
  fresh : s.workerRegistered = false → s.last = none
  held : s.workerRegistered = true → ∃ ch, s.index.get s.workerId = some ch

lemma get_register (s : State) (req : RegisterRequest) :
    (s.register req).index.get (s.register req).workerId =
      some (workerChannel (s.register req).workerId req) := by
  simp only [State.register, ChannelIndex.get, ChannelIndex.upsert, workerChannel,
    AList.lookup_insert]

lemma indexed_register (s : State) (req : RegisterRequest) :
    (s.register req).indexed = some (split ',' (join ',' req.models)) := by
  rw [State.indexed, get_register, Option.map_some, workerChannel]

lemma setModels_spec (hheld : ∃ ch, s.index.get s.workerId = some ch) {models : List String}
    (hne : models ≠ []) : ∃ index, s.setModels models = { s with index } ∧
      ∃ ch, index.get s.workerId = some ch ∧ ch.models = join ',' models := by
  obtain ⟨ch, hch⟩ := hheld
  have hid := s.index.keyed s.workerId ch hch
  rw [State.setModels, if_neg hne, hch]
  dsimp only
  split_ifs with hsame
  · refine ⟨_, rfl, { ch with models := join ',' models }, ?_, rfl⟩
    rw [ChannelIndex.get, ChannelIndex.upsert, ← hid, AList.lookup_insert]
  · exact ⟨s.index, rfl, ch, hch, by simpa using hsame⟩

lemma sane_step (h : Sane s) (hs : step s msg = some t) : Sane t := by
  cases hs
  rcases handle_cases s msg with ⟨hsame, hsync⟩ | ⟨req, rfl, hreg, hreq⟩ |
    ⟨models, rfl, hreg, hset, -⟩
  · rw [hsame]
    refine ⟨fun hreg => ?_, h.held⟩
    have hnot : ¬ Counts s msg := fun hcounts => absurd ((hsync hcounts).1.symm.trans hreg) nofun
    exact (if_neg hnot).trans (h.fresh hreg)
  · rw [hreq]
    have hget := get_register s req
    have hregistered : (s.register req).workerRegistered = true := rfl
    generalize s.register req = u at *
    exact ⟨fun h' => absurd (hregistered.symm.trans h') nofun, fun _ => ⟨_, hget⟩⟩
  · rw [hset]
    by_cases hne : models = []
    · rw [State.setModels, if_pos hne]
      exact ⟨fun h' => absurd (hreg.symm.trans h') nofun, fun h' => h.held h'⟩
    · obtain ⟨index, heq, ch, hch, -⟩ := setModels_spec (h.held hreg) hne
      rw [heq]
      exact ⟨fun h' => absurd (hreg.symm.trans h') nofun, fun _ => ⟨ch, hch⟩⟩

lemma split_join_eq_iff {models : List String} (hne : models ≠ []) :
    split ',' (join ',' models) = models ↔ ∀ model ∈ models, ',' ∉ model.toList := by
  refine ⟨fun h model hmem => ?_, fun h => split_join hne h⟩
  rw [← h] at hmem
  exact not_mem_of_mem_split hmem

lemma mirrors_step (hsane : Sane s) (h : Mirrors s) (hs : step s msg = some t) :
    Mirrors t ↔ Harmless s msg := by
  cases hs
  have hindexed : ∀ (u : State) (last : Option (List String)),
      State.indexed { u with last } = u.indexed := fun _ _ => rfl
  unfold Mirrors Harmless
  rw [hindexed]
  by_cases hcounts : Counts s msg
  · have hne := hcounts.2
    rw [if_pos hcounts, imp_iff_right hcounts]
    simp only [Option.some.injEq, forall_eq']
    rcases handle_cases s msg with ⟨hsame, hsync⟩ | ⟨req, rfl, -, hreq⟩ |
      ⟨models, rfl, hreg, hset, -⟩
    · obtain ⟨-, models, rfl⟩ := hsync hcounts
      rw [hsame]
    · rw [hreq, indexed_register, Option.some.injEq]
      exact split_join_eq_iff hne
    · have hwritten : (s.setModels models).indexed = some (split ',' (join ',' models)) := by
        have hsome : models ≠ [] := hne
        obtain ⟨index, heq, ch, hch, hmodels⟩ := setModels_spec (hsane.held hreg) hsome
        rw [heq, State.indexed, hch, Option.map_some, hmodels]
      rw [hset, hwritten, Option.some.injEq]
      exact split_join_eq_iff hne
  · rw [if_neg hcounts]
    refine iff_of_true ?_ fun hcounts' => absurd hcounts' hcounts
    rcases handle_cases s msg with ⟨hsame, -⟩ | ⟨req, -, hreg, -⟩ |
      ⟨models, rfl, hreg, hset, hacked⟩
    · rw [hsame]
      exact h
    · rw [hsane.fresh hreg]
      nofun
    · -- it is acknowledged, so its list is empty
      have hnil : models = [] := not_not.mp fun hne => hcounts (hacked hne)
      rw [hset, State.setModels, if_pos hnil]
      exact h

/-- **When the index has the list acknowledged last**: every message is harmless. -/
theorem models_mirrored_iff (authenticated : Bool) (index : ChannelIndex) (msgs : List Message) :
    Stays step Mirrors { authenticated, index } msgs ↔
      Along step Harmless { authenticated, index } msgs :=
  stays_iff_along_of_invariant nofun sane_step mirrors_step ⟨fun _ => rfl, nofun⟩ nofun

def synced : List Message :=
  [.register (some { ns := "gpu", models := ["a"] }), .modelsSync (some ["b"])]

/-- Both messages are acknowledged, and the index has the first list. -/
theorem synced_ignored : (∃ t, run step { authenticated := true, index := .new } synced = some t ∧
      t.last = some ["b"] ∧ t.indexed = some ["a"]) ∧
    ¬ Stays step Mirrors { authenticated := true, index := .new } synced := by
  have hrun : ∃ t, run step { authenticated := true, index := .new } synced = some t ∧
      t.last = some ["b"] ∧ t.indexed = some ["a"] := ⟨_, rfl, by decide, by decide⟩
  refine ⟨hrun, fun h => ?_⟩
  obtain ⟨t, ht, hlast, hindexed⟩ := hrun
  have hmirrors := h 2 t ht ["b"] hlast
  rw [hindexed] at hmirrors
  exact absurd hmirrors (by decide)

end Tokilake.Gateway.WorkerModels
