import Mathlib.Data.List.Flatten
import Mathlib.Data.List.Perm.Basic
import Tokilake.Relay.Poller

/-! # Refunds of failed video tasks

A task whose row says `FAILURE` should have been refunded once, any other not at all. `Unbroken r`
says which steps keep that for row `r`, and asks nothing of the other rows: they may share upstream
ids and be failed or saved in any way. `refunded_once` is the result for whole runs. -/

namespace Tokilake.Relay.Refund

open Lib Lib.Text Relay.VideoTask Relay.Poller List Function

/-! ### The invariant -/

/-- The refunds a row should have led to. -/
def owed (task : Task) : List Credit :=
  if task.status = .failure ∧ 0 < task.quota then [⟨task.id, task.userId, task.quota⟩] else []

/-- Ids are the positions in the table, and every row has an upstream id. -/
structure Named (tasks : List Task) : Prop where
  ids : tasks.map Task.id = range tasks.length
  named : ∀ task ∈ tasks, task.taskID ≠ ""

/-- No other row has the upstream id of row `r`. -/
def Own (r : ℕ) (tasks : List Task) : Prop :=
  ∀ row ∈ tasks, row.id = r → ∀ task ∈ tasks, task.taskID = row.taskID → task.id = r

/-- A row the round will still come to is in memory as in the table, and the refunds are right. -/
structure Inv (r : ℕ) (s : State) : Prop where
  named : Named s.tasks
  own : Own r s.tasks
  consistent : ∀ task ∈ s.tasks, task.Consistent
  memory : ∀ id task, s.taskM id = some task →
    task.taskID = id ∧ task.ident ∈ s.tasks.map Task.ident ∧ task.Consistent
  known : ∀ id ∈ s.todo, id ∈ s.tasks.map Task.taskID
  once : ∀ row ∈ s.tasks, row.id = r → s.todo.count row.taskID ≤ 1
  fresh : ∀ task ∈ s.tasks, task.id = r → task.taskID ∈ s.todo →
    s.taskM task.taskID = some task ∧ task.progress ≠ 100
  ledger : ∀ task ∈ s.tasks, task.id = r → s.creditsOf r = owed task
  unborn : s.tasks.length ≤ r → s.creditsOf r = []

lemma inv_init (r : ℕ) : Inv r {} where
  named := ⟨rfl, by simp⟩
  own := by simp [Own]
  consistent := by simp
  memory := by simp
  known := by simp [State.todo]
  once := by simp
  fresh := by simp
  ledger := by simp
  unborn := fun _ => rfl

section
variable {r : ℕ} {tasks tasks' : List Task} {task task' : Task}

lemma Named.id_lt (h : Named tasks) (ht : task ∈ tasks) : task.id < tasks.length := by
  have := mem_map_of_mem (f := Task.id) ht
  rwa [h.ids, mem_range] at this

lemma Named.eq_of_id (h : Named tasks) (ht : task ∈ tasks) (ht' : task' ∈ tasks)
    (he : task.id = task'.id) : task = task' := by
  refine inj_on_of_nodup_map ?_ ht ht' he
  rw [h.ids]
  exact nodup_range

lemma Own.eq (ho : Own r tasks) (h : Named tasks) (ht : task ∈ tasks) (hr : task.id = r)
    (ht' : task' ∈ tasks) (he : task'.taskID = task.taskID) : task' = task :=
  h.eq_of_id ht' ht ((ho task ht hr task' ht' he).trans hr.symm)

lemma ident_eq (h : task.ident = task'.ident) :
    task.id = task'.id ∧ task.taskID = task'.taskID ∧ task.userId = task'.userId ∧
      task.quota = task'.quota := by
  simpa [Task.ident] using h

lemma mem_of_ident (he : tasks'.map Task.ident = tasks.map Task.ident) (h : task' ∈ tasks') :
    ∃ task ∈ tasks, task.id = task'.id ∧ task.taskID = task'.taskID := by
  obtain ⟨task, ht, hsame⟩ := mem_map.mp (he ▸ mem_map_of_mem (f := Task.ident) h)
  obtain ⟨hid, hname, -⟩ := ident_eq hsame
  exact ⟨task, ht, hid, hname⟩

lemma Own.of_ident (h : Own r tasks) (he : tasks'.map Task.ident = tasks.map Task.ident) :
    Own r tasks' := by
  intro row' hrow' hr task' ht' hname
  obtain ⟨row, hrow, hid, hrowName⟩ := mem_of_ident he hrow'
  obtain ⟨task, ht, hid', htaskName⟩ := mem_of_ident he ht'
  rw [← hid']
  exact h row hrow (hid.trans hr) task ht (by rw [htaskName, hname, hrowName])

lemma length_of_ident (he : tasks'.map Task.ident = tasks.map Task.ident) :
    tasks'.length = tasks.length := by
  simpa using congrArg length he

lemma map_taskID_of_ident (he : tasks'.map Task.ident = tasks.map Task.ident) :
    tasks'.map Task.taskID = tasks.map Task.taskID := by
  simpa [comp_def, Task.ident] using congrArg (map fun i => i.2.1) he

lemma Named.of_ident (h : Named tasks) (he : tasks'.map Task.ident = tasks.map Task.ident) :
    Named tasks' := by
  have hid : tasks'.map Task.id = tasks.map Task.id := by
    simpa [comp_def, Task.ident] using congrArg (map Prod.fst) he
  refine ⟨by rw [hid, length_of_ident he, h.ids], fun task ht => ?_⟩
  obtain ⟨old, hold, -, hname⟩ := mem_of_ident he ht
  exact hname ▸ h.named old hold

end

/-! ### Every step keeps it -/

/-- Row `r` does not share its upstream id, and is not started as failed, failed in bulk, or failed
without its refund and save. -/
def Unbroken (r : ℕ) (s : State) : Label → Prop
  | .insert req =>
    -- the request makes row `r`, or another one beside it
    (∀ task ∈ s.tasks, s.tasks.length = r ∨ task.id = r → task.taskID ≠ trimSpace req.response.id) ∧
      (s.tasks.length = r → normalizeVideoStatus req.response.status ≠ some .failed)
  | .start _ _ => True
  | .batch k provider bulkOk =>
    ∀ task ∈ s.tasks, task.id = r → ∀ batch ∈ s.pending[k]?, task.taskID ∈ batch.2 →
      provider = .video ∨ bulkOk = false
  | .poll p =>
    ∀ task ∈ s.tasks, task.id = r → s.current.head? = some task.taskID → Fails task p.result →
      p.creditOk = true ∧ p.updateOk = true

instance (r : ℕ) (s : State) : (a : Label) → Decidable (Unbroken r s a)
  | .insert _ => inferInstanceAs (Decidable (_ ∧ (_ → _)))
  | .start _ _ => isTrue trivial
  | .batch _ _ _ => inferInstanceAs (Decidable (∀ _ ∈ _, _ → ∀ _ ∈ _, _ → _))
  | .poll _ => inferInstanceAs (Decidable (∀ _ ∈ _, _ → _ → _ → _))

section
variable {urls : Urls} {r : ℕ} {s t : State}

lemma newTask_ident (urls : Urls) (id : ℕ) (req : Request) :
    (newTask urls id req).ident = (id, trimSpace req.response.id, req.userId, req.quota) := by
  unfold newTask
  rfl

lemma newTask_id (urls : Urls) (id : ℕ) (req : Request) : (newTask urls id req).id = id :=
  congrArg Prod.fst (newTask_ident urls id req)

lemma newTask_taskID (urls : Urls) (id : ℕ) (req : Request) :
    (newTask urls id req).taskID = trimSpace req.response.id :=
  congrArg (fun i => i.2.1) (newTask_ident urls id req)

lemma newTask_consistent (urls : Urls) (id : ℕ) (req : Request) :
    (newTask urls id req).Consistent := by
  unfold newTask
  exact consistent_applyVideoTaskState (status_mergeVideoTaskObject ..)

lemma newTask_status_eq_failure_iff (urls : Urls) (id : ℕ) (req : Request) :
    (newTask urls id req).status = .failure ↔ normalizeVideoStatus req.response.status =
      some .failed := by
  unfold newTask
  rw [status_eq_failure_iff (status_mergeVideoTaskObject ..), mergedStatus_eq_failed_iff (by simp)]

lemma named_insert (h : Named s.tasks) {req : Request} (hid : trimSpace req.response.id ≠ "") :
    Named (s.tasks ++ [newTask urls s.tasks.length req]) where
  ids := by
    rw [map_append, h.ids, length_append, length_singleton, range_succ, map_singleton, newTask_id]
  named := by
    intro task ht
    rcases mem_append.mp ht with ht | ht
    · exact h.named task ht
    · rw [mem_singleton.mp ht, newTask_taskID]
      exact hid

lemma inv_insert {req : Request} (h : Inv r s) (hok : Unbroken r s (.insert req))
    (hs : insertTask urls s req = some t) : Inv r t := by
  obtain ⟨hfresh, hlive⟩ := hok
  unfold insertTask at hs
  split_ifs at hs with hid
  cases hs
  have hmem : ∀ {task}, task ∈ s.tasks ++ [newTask urls s.tasks.length req] →
      task ∈ s.tasks ∨ task = newTask urls s.tasks.length req := by
    intro task ht
    rcases mem_append.mp ht with ht | ht
    · exact .inl ht
    · exact .inr (mem_singleton.mp ht)
  -- the round was started before the row was there
  have hnew : s.tasks.length = r → trimSpace req.response.id ∉ s.todo := by
    intro hr htodo
    obtain ⟨old, hold, he⟩ := mem_map.mp (h.known _ htodo)
    exact hfresh old hold (.inl hr) he
  refine ⟨named_insert h.named hid, ?_, ?_, ?_, ?_, ?_, ?_, ?_, ?_⟩
  · intro row hrow hr task ht hname
    rcases hmem hrow with hrow | rfl <;> rcases hmem ht with ht | rfl
    · exact h.own row hrow hr task ht hname
    · exact absurd (hname.symm.trans (newTask_taskID ..)) (hfresh row hrow (.inr hr))
    · rw [newTask_id] at hr
      exact absurd (hname.trans (newTask_taskID ..)) (hfresh task ht (.inl hr))
    · exact hr
  · intro task ht
    rcases hmem ht with ht | rfl
    · exact h.consistent task ht
    · exact newTask_consistent urls _ req
  · intro id task hm
    obtain ⟨hname, hident, hcons⟩ := h.memory id task hm
    exact ⟨hname, by rw [map_append]; exact mem_append_left _ hident, hcons⟩
  · intro id hm
    rw [map_append]
    exact mem_append_left _ (h.known id hm)
  · intro row hrow hr
    rcases hmem hrow with hrow | rfl
    · exact h.once row hrow hr
    · rw [newTask_id] at hr
      rw [newTask_taskID]
      exact (count_eq_zero_of_not_mem (hnew hr)).trans_le zero_le_one
  · intro task ht hr htodo
    rcases hmem ht with ht | rfl
    · exact h.fresh task ht hr htodo
    · rw [newTask_id] at hr
      exact absurd (newTask_taskID .. ▸ htodo) (hnew hr)
  · intro task ht hr
    rcases hmem ht with ht | rfl
    · exact h.ledger task ht hr
    rw [newTask_id] at hr
    have hstatus : (newTask urls s.tasks.length req).status ≠ .failure := by
      rw [ne_eq, newTask_status_eq_failure_iff]
      exact hlive hr
    rw [owed, if_neg fun hf => hstatus hf.1]
    exact h.unborn hr.le
  · intro hlen
    exact h.unborn (by simp at hlen; omega)

lemma bulkFail_unnamed (h : Named s.tasks) (ids : List ℕ)
    (hids : ∀ task ∈ s.tasks, task.id ∈ ids → task.taskID = "") :
    bulkFail (fun task => task.id ∈ ids) none s.tasks = s.tasks := by
  unfold bulkFail
  rw [map_congr_left ?_, map_id]
  intro task ht
  have hnot : task.id ∉ ids := fun hm => h.named task ht (hids task ht hm)
  simp [hnot]

lemma round_tasks (h : Named s.tasks) {rows : List Task} (hsub : rows.Sublist s.tasks)
    (bulkOk : Bool) :
    (s.round rows bulkOk).tasks = s.tasks := by
  unfold State.round
  split_ifs
  · refine bulkFail_unnamed h _ fun task ht hm => ?_
    obtain ⟨row, hrow, he⟩ := mem_map.mp hm
    rw [mem_filter, decide_eq_true_eq] at hrow
    exact h.eq_of_id (hsub.subset hrow.1) ht he ▸ hrow.2
  · rfl

lemma round_taskM {rows : List Task} {bulkOk : Bool} {id : String} {task : Task}
    (h : (s.round rows bulkOk).taskM id = some task) : task ∈ rows ∧ task.taskID = id := by
  have hmem := mem_reverse.mp (mem_of_find?_eq_some h)
  exact ⟨mem_of_mem_filter hmem, by simpa using find?_some h⟩

lemma round_todo (h : Named s.tasks) {rows : List Task} (hsub : rows.Sublist s.tasks)
    (hidle : s.current = []) (bulkOk : Bool) :
    (s.round rows bulkOk).todo.Perm (rows.map Task.taskID) := by
  have hnamed : rows.filter (fun row => row.taskID ≠ "") = rows :=
    filter_eq_self.mpr fun row hrow => by simpa using h.named row (hsub.subset hrow)
  have htodo : (s.round rows bulkOk).todo = (taskChannelM rows).flatMap Prod.snd := by
    unfold State.todo State.round
    rw [hidle, hnamed, nil_append]
  rw [htodo]
  exact Table.groups_perm

lemma Own.count_le (ho : Own r s.tasks) (h : Named s.tasks) {row : Task} (hrow : row ∈ s.tasks)
    (hr : row.id = r) : (s.tasks.map Task.taskID).count row.taskID ≤ 1 := by
  have hids : (s.tasks.map Task.id).Nodup := by
    rw [h.ids]
    exact nodup_range
  calc (s.tasks.map Task.taskID).count row.taskID
      = s.tasks.countP fun task => task.taskID == row.taskID := countP_map ..
    _ ≤ s.tasks.countP fun task => task.id == r :=
        countP_mono_left fun task ht he => by simpa using ho row hrow hr task ht (by simpa using he)
    _ = (s.tasks.map Task.id).count r := by rw [count, countP_map]; rfl
    _ ≤ 1 := nodup_iff_count_le_one.mp hids r

lemma inv_start {limit : ℕ} {bulkOk : Bool} (h : Inv r s) (hs : start s limit bulkOk = some t) :
    Inv r t := by
  unfold start at hs
  split_ifs at hs with hidle
  cases hs
  have hsub : (getAllUnFinishSyncTasks s.tasks limit).Sublist s.tasks :=
    (take_sublist _ _).trans filter_sublist
  have hlive : ∀ row ∈ getAllUnFinishSyncTasks s.tasks limit, row.progress ≠ 100 := by
    intro row hrow
    simpa using of_mem_filter (mem_of_mem_take hrow)
  generalize getAllUnFinishSyncTasks s.tasks limit = rows at hsub hlive
  have htodo := round_todo h.named hsub hidle.2.1 bulkOk
  have htasks := round_tasks h.named hsub bulkOk
  refine ⟨?_, ?_, ?_, ?_, ?_, ?_, ?_, ?_, ?_⟩ <;> rw [htasks]
  · exact h.named
  · exact h.own
  · exact h.consistent
  · intro id task hf
    obtain ⟨hm, hid⟩ := round_taskM hf
    exact ⟨hid, mem_map_of_mem (hsub.subset hm), h.consistent task (hsub.subset hm)⟩
  · intro id hid
    exact (hsub.map _).subset (htodo.mem_iff.mp hid)
  · intro row hrow hr
    rw [htodo.count_eq]
    exact ((hsub.map _).count_le _).trans (h.own.count_le h.named hrow hr)
  · intro task ht hr hid
    obtain ⟨row, hrow, he⟩ := mem_map.mp (htodo.mem_iff.mp hid)
    obtain rfl := h.own.eq h.named ht hr (hsub.subset hrow) he
    refine ⟨?_, hlive row hrow⟩
    -- the last row of that upstream id is the only one
    have hsome : ((s.round rows bulkOk).taskM row.taskID).isSome := by
      refine find?_isSome.mpr ⟨row, mem_reverse.mpr ?_, by simp⟩
      exact mem_filter.mpr ⟨hrow, by simpa using h.named.named row ht⟩
    obtain ⟨found, hfound⟩ := Option.isSome_iff_exists.mp hsome
    obtain ⟨hm, hid⟩ := round_taskM hfound
    rw [hfound, h.own.eq h.named ht hr (hsub.subset hm) hid]
  · exact h.ledger
  · exact h.unborn

lemma Inv.frame (h : Inv r s) (hident : t.tasks.map Task.ident = s.tasks.map Task.ident)
    (hcons : ∀ task ∈ t.tasks, task.Consistent)
    (hmem : ∀ id task, t.taskM id = some task →
      task.taskID = id ∧ task.ident ∈ s.tasks.map Task.ident ∧ task.Consistent)
    (hsub : t.todo.Sublist s.todo ∨ t.todo.Perm s.todo)
    (hrow : ∀ task ∈ t.tasks, task.id = r → task ∈ s.tasks ∧
      t.taskM task.taskID = s.taskM task.taskID)
    (hcredits : t.creditsOf r = s.creditsOf r) : Inv r t := by
  have hsubset : ∀ id ∈ t.todo, id ∈ s.todo := by
    rcases hsub with hsub | hsub
    · exact hsub.subset
    · exact fun id hid => hsub.mem_iff.mp hid
  refine ⟨h.named.of_ident hident, h.own.of_ident hident, hcons, ?_, ?_, ?_, ?_, ?_, ?_⟩
  · rw [hident]
    exact hmem
  · rw [map_taskID_of_ident hident]
    exact fun id hid => h.known id (hsubset id hid)
  · intro row ht hr
    have honce := h.once row (hrow row ht hr).1 hr
    rcases hsub with hsub | hsub
    · exact (hsub.count_le _).trans honce
    · exact hsub.count_eq _ ▸ honce
  · intro task ht hr hid
    obtain ⟨hold, hM⟩ := hrow task ht hr
    rw [hM]
    exact h.fresh task hold hr (hsubset _ hid)
  · intro task ht hr
    rw [hcredits]
    exact h.ledger task (hrow task ht hr).1 hr
  · rw [length_of_ident hident, hcredits]
    exact h.unborn

lemma bulkFail_ident (p : Task → Bool) (reason : Option String) (tasks : List Task) :
    (bulkFail p reason tasks).map Task.ident = tasks.map Task.ident := by
  unfold bulkFail
  rw [map_map]
  refine map_congr_left fun task _ => ?_
  rw [comp_apply]
  split_ifs <;> rfl

lemma mem_bulkFail {p : Task → Bool} {reason : Option String} {tasks : List Task} {task : Task}
    (h : task ∈ bulkFail p reason tasks) :
    task ∈ tasks ∧ p task = false ∨ ∃ old ∈ tasks, p old = true ∧ task = failRow reason old := by
  obtain ⟨old, hold, rfl⟩ := mem_map.mp h
  by_cases hp : p old = true
  · exact .inr ⟨old, hold, hp, if_pos hp⟩
  · rw [if_neg hp]
    exact .inl ⟨hold, by simpa using hp⟩

lemma inv_bulk {k : ℕ} {ids : List String} {bulkOk : Bool} {reason : String} (h : Inv r s)
    (hok : ∀ task ∈ s.tasks, task.id = r → task.taskID ∈ ids → bulkOk = false) : Inv r { s with
      tasks := if bulkOk then bulkFail (fun row => row.taskID ∈ ids)
        (some reason) s.tasks else s.tasks
      pending := s.pending.eraseIdx k } := by
  have hpending : (s.pending.eraseIdx k).Sublist s.pending := eraseIdx_sublist ..
  have hsub : State.todo { s with pending := s.pending.eraseIdx k } |>.Sublist s.todo :=
    (List.Sublist.refl _).append (hpending.flatMap _)
  cases bulkOk with
  | false => exact h.frame rfl h.consistent h.memory (.inl hsub) (fun task ht _ => ⟨ht, rfl⟩) rfl
  | true =>
    refine h.frame (bulkFail_ident _ _ _) ?_ h.memory (.inl hsub) ?_ rfl
    · intro task ht
      rcases mem_bulkFail ht with ⟨ht, -⟩ | ⟨old, -, -, rfl⟩
      · exact h.consistent task ht
      · exact fun hne => absurd rfl hne
    · intro task ht hr
      rcases mem_bulkFail ht with ⟨ht, -⟩ | ⟨old, hold, hp, rfl⟩
      · exact ⟨ht, rfl⟩
      · exact absurd (hok old hold hr (by simpa using hp)) (by simp)

lemma inv_batch {k : ℕ} {provider : Provider} {bulkOk : Bool} (h : Inv r s)
    (hok : Unbroken r s (.batch k provider bulkOk)) (hs : batch s k provider bulkOk = some t) :
    Inv r t := by
  unfold batch at hs
  split at hs
  · next c ids hcur hk =>
    have hbulk : provider ≠ .video → ∀ task ∈ s.tasks, task.id = r → task.taskID ∈ ids →
        bulkOk = false :=
          fun hne task ht hr hid => (hok task ht hr (c, ids) hk hid).resolve_left hne
    cases provider with
    | missing | notVideo =>
      cases hs
      exact inv_bulk h (hbulk nofun)
    | video =>
      cases hs
      refine h.frame rfl h.consistent h.memory (.inr ?_) (fun task ht _ => ⟨ht, rfl⟩) rfl
      obtain ⟨hlt, he⟩ := List.getElem?_eq_some_iff.mp hk
      have hperm := (List.getElem_cons_eraseIdx_perm hlt).flatMap_right Prod.snd
      rw [List.flatMap_cons, he] at hperm
      simpa [State.todo, hcur] using hperm
  · cases hs

lemma update_ident (h : Named s.tasks) {task : Task} (ht : task.ident ∈ s.tasks.map Task.ident) :
    (Table.update Task.id task.id (fun _ => task) s.tasks).map Task.ident =
      s.tasks.map Task.ident := by
  obtain ⟨row, hrow, he⟩ := mem_map.mp ht
  have hid := congrArg Prod.fst he
  unfold Table.update
  rw [map_map]
  refine map_congr_left fun old hold => ?_
  rw [comp_apply]
  split_ifs with hk
  · rw [h.eq_of_id hold hrow (hk.trans hid.symm), he]
  · rfl


section
variable {id : String} {rest : List String} {out : Polled} {p : Poll}

lemma written_ident (rest : List String) (id : String) (p : Poll) (h : Named s.tasks)
    (ht : out.task.ident ∈ s.tasks.map Task.ident) :
    (s.written rest id out p).tasks.map Task.ident = s.tasks.map Task.ident := by
  unfold State.written
  dsimp only
  split_ifs
  · exact update_ident h ht
  · rfl

lemma mem_written {task : Task} (h : task ∈ (s.written rest id out p).tasks) :
    task ∈ s.tasks ∧ (task.id ≠ out.task.id ∨ ¬ (out.update = true ∧ p.updateOk = true)) ∨
      task = out.task := by
  unfold State.written at h
  dsimp only at h
  split_ifs at h with hw
  · rcases Table.mem_update.mp h with ⟨hm, hne⟩ | ⟨_, _, _, he⟩
    · exact .inl ⟨hm, .inl hne⟩
    · exact .inr he
  · exact .inl ⟨h, .inr hw⟩

lemma written_memory (h : Inv r s) (hname : out.task.taskID = id)
    (hident : out.task.ident ∈ s.tasks.map Task.ident) (hcons : out.task.Consistent) :
    ∀ id' task, (s.written rest id out p).taskM id' = some task →
      task.taskID = id' ∧ task.ident ∈ s.tasks.map Task.ident ∧ task.Consistent := by
  intro id' task hm
  unfold State.written at hm
  dsimp only at hm
  by_cases he : id' = id
  · subst he
    rw [update_self] at hm
    cases hm
    exact ⟨hname, hident, hcons⟩
  · rw [update_of_ne he] at hm
    exact h.memory id' task hm

lemma written_consistent (h : Inv r s) (hcons : out.task.Consistent) :
    ∀ task ∈ (s.written rest id out p).tasks, task.Consistent := by
  intro task ht
  rcases mem_written ht with ⟨hm, -⟩ | rfl
  · exact h.consistent task hm
  · exact hcons

lemma written_todo (hcur : s.current = id :: rest) :
    s.todo = id :: (s.written rest id out p).todo := by
  unfold State.todo
  rw [hcur]
  rfl

end

lemma inv_written_other {id : String} {rest : List String} {out : Polled} {p : Poll} (h : Inv r s)
    (hcur : s.current = id :: rest) (hname : out.task.taskID = id)
    (hident : out.task.ident ∈ s.tasks.map Task.ident) (hcons : out.task.Consistent)
    (hne : out.task.id ≠ r) : Inv r (s.written rest id out p) := by
  refine h.frame (written_ident rest id p h.named hident) (written_consistent h hcons)
    (written_memory h hname hident hcons) (.inl ?_) ?_ (written_creditsOf_ne hne)
  · rw [written_todo hcur]
    exact sublist_cons_self ..
  · intro task ht hr
    rcases mem_written ht with ⟨hm, -⟩ | rfl
    · refine ⟨hm, update_of_ne (fun he => hne ?_) _ _⟩
      -- an upstream id names one row
      obtain ⟨row, hrow, hrow'⟩ := mem_map.mp hident
      obtain ⟨hid, htaskID, -⟩ := ident_eq hrow'
      rw [← hid, h.own.eq h.named hm hr hrow (htaskID.trans (hname.trans he.symm)), hr]
    · exact absurd hr hne

lemma mem_written_self {row task : Task} {rest : List String} {out : Polled} {p : Poll}
    (h : Inv r s) (hrow : row ∈ s.tasks) (hr : row.id = r) (hid : out.task.id = row.id)
    (hok : Fails row p.result → out.update = true ∧ p.updateOk = true)
    (ht : task ∈ (s.written rest row.taskID out p).tasks) (htr : task.id = r) :
    task = row ∧ ¬ Fails row p.result ∨ task = out.task := by
  rcases mem_written ht with ⟨hm, hkept⟩ | rfl
  · obtain rfl := h.named.eq_of_id hm hrow (htr.trans hr.symm)
    refine .inl ⟨rfl, fun hf => ?_⟩
    rcases hkept with hne | hnw
    · exact hne hid.symm
    · exact hnw (hok hf)
  · exact .inr rfl

lemma inv_written_self {row : Task} {rest : List String} {p : Poll} (h : Inv r s)
    (hcur : s.current = row.taskID :: rest) (hrow : row ∈ s.tasks) (hr : row.id = r)
    (hlive : row.progress ≠ 100)
    (hok : Fails row p.result → p.creditOk = true ∧ p.updateOk = true) :
    Inv r (s.written rest row.taskID (pollTask urls row p) p) := by
  have hnot := h.consistent row hrow hlive
  obtain ⟨hstatus, hrefund, hupdate⟩ := pollTask_spec urls p hnot
  obtain ⟨hid, hname, huser, hquota⟩ := ident_eq (pollTask_ident urls row p)
  have hident : (pollTask urls row p).task.ident ∈ s.tasks.map Task.ident := by
    rw [pollTask_ident]
    exact mem_map_of_mem hrow
  have hcons := pollTask_consistent urls p (h.consistent row hrow)
  have howed : owed row = [] := if_neg fun hf => hnot (.inl hf.1)
  have hbefore := (h.ledger row hrow hr).trans howed
  generalize hout : pollTask urls row p = out at *
  have hnamed := written_ident rest row.taskID p h.named hident
  have hcases : ∀ task ∈ (s.written rest row.taskID out p).tasks, task.id = r →
      task = row ∧ ¬ Fails row p.result ∨ task = out.task := fun task =>
    mem_written_self h hrow hr hid fun hf => ⟨hupdate hf, (hok hf).2⟩
  -- what is left to poll does not name the row again
  have hgone : row.taskID ∉ (s.written rest row.taskID out p).todo := by
    have honce := h.once row hrow hr
    rw [written_todo hcur, count_cons_self] at honce
    exact count_eq_zero.mp (Nat.le_zero.mp (Nat.le_of_succ_le_succ honce))
  have hsame : ∀ task ∈ (s.written rest row.taskID out p).tasks, task.id = r →
      task.taskID = row.taskID := by
    intro task ht htr
    rcases hcases task ht htr with ⟨rfl, -⟩ | rfl
    · rfl
    · exact hname
  refine ⟨h.named.of_ident hnamed, h.own.of_ident hnamed, written_consistent h hcons,
    ?_, ?_, ?_, ?_, ?_, ?_⟩
  · rw [hnamed]
    exact written_memory h hname hident hcons
  · rw [map_taskID_of_ident hnamed]
    exact fun i hi => h.known i (written_todo hcur ▸ mem_cons_of_mem _ hi)
  · intro task ht htr
    rw [hsame task ht htr, count_eq_zero_of_not_mem hgone]
    exact zero_le_one
  · intro task ht htr hmem
    exact absurd (hsame task ht htr ▸ hmem) hgone
  · intro task ht htr
    rw [written_creditsOf_self (hid.trans hr), hbefore, nil_append]
    by_cases hf : Fails row p.result
    · obtain rfl : task = out.task := by
        rcases hcases task ht htr with ⟨-, hn⟩ | he
        · exact absurd hf hn
        · exact he
      simp [owed, hstatus.mpr hf, hrefund.mpr hf, (hok hf).1]
    · have hzero : owed task = [] := by
        rcases hcases task ht htr with ⟨rfl, -⟩ | rfl
        · exact howed
        · exact if_neg fun he => hf (hstatus.mp he.1)
      rw [hzero, if_neg fun he => hf (hrefund.mp he.1)]
  · rw [length_of_ident hnamed]
    have := h.named.id_lt hrow
    omega

lemma inv_poll {p : Poll} (h : Inv r s) (hok : Unbroken r s (.poll p))
    (hs : poll urls s p = some t) :
    Inv r t := by
  unfold poll at hs
  split at hs
  · cases hs
  next id rest hcur =>
  split at hs
  · cases hs
    refine h.frame rfl h.consistent h.memory (.inl ?_) (fun task ht _ => ⟨ht, rfl⟩) rfl
    unfold State.todo
    rw [hcur]
    exact (sublist_cons_self id rest).append (List.Sublist.refl _)
  · next task hm =>
    cases hs
    obtain ⟨hname, hident, hcons⟩ := h.memory id task hm
    by_cases hr : task.id = r
    · obtain ⟨row, hrow, he⟩ := mem_map.mp hident
      obtain ⟨hid, htaskID, -⟩ := ident_eq he
      have htodo : row.taskID ∈ s.todo := by
        rw [htaskID, hname, State.todo, hcur]
        exact mem_append_left _ mem_cons_self
      obtain ⟨hM, hlive⟩ := h.fresh row hrow (hid.trans hr) htodo
      obtain rfl : task = row := by
        rw [htaskID, hname, hm] at hM
        exact Option.some.inj hM
      subst hname
      exact inv_written_self h hcur hrow hr hlive
        (hok task hrow hr (by rw [hcur, head?_cons]))
    · obtain ⟨hid, htaskID, -⟩ := ident_eq (pollTask_ident urls task p)
      refine inv_written_other h hcur (htaskID.trans hname) ?_ (pollTask_consistent urls p hcons) ?_
      · rw [pollTask_ident]
        exact hident
      · rw [hid]
        exact hr

lemma inv_step {a : Label} (h : Inv r s) (hok : Unbroken r s a) (hs : step urls s a = some t) :
    Inv r t := by
  cases a with
  | insert req => exact inv_insert h hok hs
  | start limit bulkOk => exact inv_start h hs
  | batch k provider bulkOk => exact inv_batch h hok hs
  | poll p => exact inv_poll h hok hs

end

/-- **Refunded once** if the row says `FAILURE`, and otherwise not, in unbroken runs. -/
theorem refunded_once (urls : Urls) (r : ℕ) {labels : List Label} {s : State}
    (hrun : Run.run (step urls) {} labels = some s)
    (hok : Run.Along (step urls) (Unbroken r) {} labels)
    {task : Task} (ht : task ∈ s.tasks) (hr : task.id = r) (hq : 0 < task.quota) :
    (task.status = .failure → s.creditsOf r = [⟨r, task.userId, task.quota⟩]) ∧
      (task.status ≠ .failure → s.creditsOf r = []) := by
  have h := Run.run_invariant (fun hI hok hs => inv_step hI hok hs) (inv_init r) hok hrun
  rw [h.ledger task ht hr, owed]
  constructor
  · intro hf
    rw [if_pos ⟨hf, hq⟩, hr]
  · intro hf
    exact if_neg fun hb => hf hb.1

def sampleRequest : Request where
  userId := 7
  channelId := 1
  quota := 10
  mode := ""
  properties := {}
  response := { id := "v", status := "queued" }
  now := 100

def samplePoll (updateOk : Bool) : Poll where
  now := 200
  result := .ok { id := "v", status := "failed" }
  updateOk

def noUrls : Urls := ⟨fun _ _ => none, fun _ => ""⟩

def sampleRun : List Label :=
  [.insert sampleRequest, .start 500 true, .batch 0 .video true,
    .poll { now := 150, result := .error ⟨"timeout", "504"⟩ }, .start 500 true,
      .batch 0 .video true,
    .poll (samplePoll true)]

theorem refunded_once_failed : ∃ s, Run.run (step noUrls) {} sampleRun = some s ∧
      (∃ task ∈ s.tasks, task.id = 0 ∧ task.status = .failure) ∧ s.creditsOf 0 = [⟨0, 7, 10⟩] := by
  have hrow : ((Run.run (step noUrls) {} sampleRun).map fun s => s.tasks.map fun task =>
      (task.id, task.status, task.userId, task.quota)) = some [(0, .failure, 7, 10)] := by
    decide
  obtain ⟨s, hs, htasks⟩ := Option.map_eq_some_iff.mp hrow
  obtain ⟨task, ht, he⟩ := mem_map.mp (htasks ▸ mem_singleton_self _)
  simp only [Prod.mk.injEq] at he
  obtain ⟨hid, hstatus, huser, hquota⟩ := he
  have hok : Run.Along (step noUrls) (Unbroken 0) {} sampleRun := by decide
  have hcredits := (refunded_once noUrls 0 hs hok ht hid (by rw [hquota]; decide)).1 hstatus
  rw [huser, hquota] at hcredits
  exact ⟨s, hs, ⟨task, ht, hid, hstatus⟩, hcredits⟩

/-- A row failed in bulk is not refunded; one whose save fails is refunded twice. -/
theorem refund_lost_or_doubled :
    ((Run.run (step noUrls) {} [.insert sampleRequest, .start 500 true, .batch 0 .missing true]).map
        fun s => (s.tasks.map Task.status, s.creditsOf 0)) = some ([.failure], []) ∧
      ((Run.run (step noUrls) {}
          [.insert sampleRequest, .start 500 true, .batch 0 .video true, .poll (samplePoll false),
            .start 500 true, .batch 0 .video true, .poll (samplePoll true)]).map
        fun s => (s.tasks.map Task.status, s.creditsOf 0)) =
        some ([.failure], [⟨0, 7, 10⟩, ⟨0, 7, 10⟩]) := by
  decide

end Tokilake.Relay.Refund
