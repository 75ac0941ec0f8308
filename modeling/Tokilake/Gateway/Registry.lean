import Tokilake.Core.Slots
import Tokilake.Gateway.ChannelIndex
import Tokilake.Lib.Text

/-! # Worker registries that count

`ToastyHub` and `MemoryWorkerRegistry` both give a new worker the number of entries plus one as its
id.  `Table` is what they have in common, with a history of the registered workers.

* `registries_proper_iff`: when the ids of live workers stay distinct. -/

namespace Tokilake.Gateway.Registry

open Lib List
open Core.Slots (int32)

/-! ### A map of entries with ids -/

variable {ε : Type}

structure Table (ε : Type) where
  entries : AList fun _ : ℤ => ε := ∅
  workers : List (ℤ × ε) := []

/-- Every worker has its entry under its id, there are no other entries, and no id is given twice.
-/
structure Table.Proper (t : Table ε) : Prop where
  ids : (t.workers.map Prod.fst).Nodup
  entry : ∀ id e, t.entries.lookup id = some e ↔ (id, e) ∈ t.workers

def Table.register (t : Table ε) (key id : ℤ) (e : ε) : Table ε where
  entries := t.entries.insert key e
  workers := t.workers ++ [(id, e)]

def Table.cleanup (t : Table ε) (id : ℤ) : Table ε where
  entries := t.entries.erase id
  workers := t.workers.filter fun w => w.1 ≠ id

variable {t : Table ε} {key id : ℤ} {e : ε}

lemma proper_register (h : t.Proper) :
    (t.register key id e).Proper ↔ key ∉ t.workers.map Prod.fst ∧ id = key := by
  constructor
  · intro ht
    have hids := ht.ids
    simp only [Table.register, map_append, map_cons, map_nil] at hids
    have hfresh : id ∉ t.workers.map Prod.fst := fun hmem =>
      (disjoint_of_nodup_append hids) hmem (by simp)
    have hentry := (ht.entry id e).mpr (by simp [Table.register])
    have hid : id = key := by
      by_contra hne
      rw [Table.register, AList.lookup_insert_ne hne, h.entry] at hentry
      exact hfresh (mem_map_of_mem hentry)
    exact ⟨hid ▸ hfresh, hid⟩
  · rintro ⟨hfresh, rfl⟩
    refine ⟨?_, fun j e' => ?_⟩
    · simp only [Table.register, map_append, map_cons, map_nil]
      exact nodup_append.mpr ⟨h.ids, by simp, by rintro a ha b hb rfl; simp_all⟩
    · by_cases hj : j = id
      · subst hj
        have hnone : (j, e') ∉ t.workers := fun hmem => hfresh (mem_map_of_mem hmem)
        simp [Table.register, AList.lookup_insert, hnone, eq_comm]
      · simp [Table.register, AList.lookup_insert_ne hj, h.entry, hj]

lemma proper_cleanup (h : t.Proper) (id : ℤ) : (t.cleanup id).Proper := by
  refine ⟨?_, fun j e => ?_⟩
  · exact h.ids.sublist (filter_sublist.map Prod.fst)
  · by_cases hj : j = id
    · subst hj
      simp [Table.cleanup, AList.lookup_erase]
    · simp [Table.cleanup, AList.lookup_erase_ne hj, h.entry, hj]

/-! ### The registry of the hub -/

structure RegisterRequest where
  ns : String
  group : String := ""
  models : List String := []
  backendType : String := ""
  deriving DecidableEq

inductive Call
  | register (req : RegisterRequest)
  | cleanup (workerId : ℤ)
  deriving DecidableEq

def effectiveGroup (group : String) : String :=
  if Text.trimSpace group = "" then "default" else group

def workerChannel (channelId : ℤ) (req : RegisterRequest) : ChannelEntry where
  id := channelId
  name := req.ns
  provider := req.backendType
  models := Text.join ',' req.models
  status := 1
  weight := 1
  group := effectiveGroup req.group
  priority := 0

structure Hub where
  index : ChannelIndex := ChannelIndex.new
  workers : List (ℤ × ChannelEntry) := []

variable (hub : Hub)

def Hub.nextId : ℤ := hub.index.channelCount + 1

def Hub.registerWorker (req : RegisterRequest) : Hub where
  index := hub.index.upsert (workerChannel hub.nextId req)
  workers := hub.workers ++ [(int32 hub.nextId, workerChannel hub.nextId req)]

def Hub.cleanupWorker (workerId : ℤ) : Hub where
  index := hub.index.remove workerId
  workers := hub.workers.filter fun w => w.1 ≠ workerId

def Hub.step : Call → Option Hub
  | .register req => some (hub.registerWorker req)
  | .cleanup workerId => some (hub.cleanupWorker workerId)

def Hub.table : Table ChannelEntry := ⟨hub.index.channels, hub.workers⟩

def Hub.Fresh : Call → Prop
  | .register _ => hub.nextId ∉ hub.workers.map Prod.fst ∧ int32 hub.nextId = hub.nextId
  | .cleanup _ => True

/-! ### The registry of the server -/

structure WorkerEntry where
  workerId : ℤ
  ns : String
  models : List String
  group : String
  status : String
  deriving DecidableEq

structure Memory where
  table : Table WorkerEntry := {}

variable (m : Memory)

def Memory.nextId : ℤ := int32 (int32 m.table.entries.entries.length + 1)

def workerEntry (workerId : ℤ) (req : RegisterRequest) : WorkerEntry :=
  ⟨workerId, req.ns, req.models, req.group, req.backendType⟩

def Memory.registerWorker (req : RegisterRequest) : Except String Memory :=
  if Text.trimSpace req.ns = "" then .error "namespace is required"
  else .ok ⟨m.table.register m.nextId m.nextId (workerEntry m.nextId req)⟩

def Memory.cleanupWorker (workerId : ℤ) : Memory := ⟨m.table.cleanup workerId⟩

def Memory.step : Call → Option Memory
  | .register req => some ((m.registerWorker req).toOption.getD m)
  | .cleanup workerId => some (m.cleanupWorker workerId)

def Memory.Fresh : Call → Prop
  | .register req => Text.trimSpace req.ns ≠ "" → m.nextId ∉ m.table.workers.map Prod.fst
  | .cleanup _ => True

/-! ### Whole runs -/

lemma hub_step {hub hub' : Hub} {call : Call} (h : hub.table.Proper)
    (hstep : hub.step call = some hub') : hub'.table.Proper ↔ hub.Fresh call := by
  cases call with
  | register req =>
    cases hstep
    exact proper_register h
  | cleanup workerId =>
    cases hstep
    exact iff_of_true (proper_cleanup h workerId) trivial

lemma memory_step {m m' : Memory} {call : Call} (h : m.table.Proper)
    (hstep : m.step call = some m') : m'.table.Proper ↔ m.Fresh call := by
  cases call with
  | register req =>
    cases hstep
    by_cases hns : Text.trimSpace req.ns = ""
    · simpa [Memory.registerWorker, Memory.Fresh, hns, Except.toOption] using h
    · have hreg : (m.table.register m.nextId m.nextId (workerEntry m.nextId req)).Proper ↔ _ :=
        proper_register h
      simpa [Memory.registerWorker, Memory.Fresh, hns, Except.toOption] using hreg
  | cleanup workerId =>
    cases hstep
    exact iff_of_true (proper_cleanup h workerId) trivial

/-- **When ids are safe**: every registration gives out an id that no worker has. -/
theorem registries_proper_iff (calls : List Call) :
    (Run.Stays Hub.step (fun hub => hub.table.Proper) {} calls ↔
      Run.Along Hub.step Hub.Fresh {} calls) ∧
    (Run.Stays Memory.step (fun m => m.table.Proper) {} calls ↔
      Run.Along Memory.step Memory.Fresh {} calls) := by
  have hempty : ∀ {ε : Type}, (⟨∅, []⟩ : Table ε).Proper := by exact ⟨by simp, by simp⟩
  exact ⟨Run.stays_iff_along (fun hub call => by cases call <;> exact ⟨_, rfl⟩) hub_step hempty,
    Run.stays_iff_along (fun m call => by cases call <;> exact ⟨_, rfl⟩) memory_step hempty⟩

def reuse : List Call :=
  [.register { ns := "a" }, .register { ns := "b" }, .cleanup 1, .register { ns := "c" }]

/-- The third worker gets the id of the second one, and its entry. -/
theorem reused_id :
    (Run.run Hub.step {} reuse).map (fun hub => (hub.workers.map fun w => (w.1, w.2.name),
      (hub.index.get 2).map ChannelEntry.name, hub.index.channelCount)) =
        some ([(2, "b"), (2, "c")], some "c", 1) ∧
    (Run.run Memory.step {} reuse).map (fun m => (m.table.workers.map fun w => (w.1, w.2.ns),
      (m.table.entries.lookup 2).map WorkerEntry.ns)) = some ([(2, "b"), (2, "c")], some "c") := by
  decide

end Tokilake.Gateway.Registry
