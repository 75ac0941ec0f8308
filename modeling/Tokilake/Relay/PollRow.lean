import Tokilake.Relay.Poller

/-! # The row of one task over its polls

A round reads the unfinished rows, polls each once and stores what a poll made of it.

* `no_update_of_same_answer`: an answer that says nothing new changes nothing;
* `failure_iff_errorsSince`: a row fails after twenty errors in a row. -/

namespace Tokilake.Relay.PollRow

open Lib Lib.Run Lib.Text
open Relay.VideoTask Relay.Poller

/-! ### The same answer again -/

lemma taskStatusToVideoStatus_toTaskStatus (v : VideoStatus) :
    taskStatusToVideoStatus (videoStatusToTaskStatus v.text) = v := by
  cases v <;> rfl

section
variable {now : ℤ} {task : Task} {urls urls' : Urls} {response video : VideoTaskObject}

lemma taskID_applyVideoTaskState : (applyVideoTaskState now task video).taskID = task.taskID := by
  dsimp only [applyVideoTaskState]

lemma propertiesFromTask_applyVideoTaskState (hp : task.properties ≠ none) :
    propertiesFromTask (applyVideoTaskState now task video) = propertiesFromTask task := by
  obtain ⟨properties, hproperties⟩ := Option.ne_none_iff_exists'.mp hp
  simp only [propertiesFromTask, applyVideoTaskState, hproperties]
  split_ifs <;> rfl

lemma mergedStatus_applyVideoTaskState (h : video.status = (mergedStatus task response).text) :
    mergedStatus (applyVideoTaskState now task video) response = mergedStatus task response := by
  conv_lhs => unfold mergedStatus
  rw [applyVideoTaskState_status, h, taskStatusToVideoStatus_toTaskStatus]
  unfold mergedStatus
  cases normalizeVideoStatus response.status <;> rfl

lemma created_applyVideoTaskState (hs : task.submitTime ≠ 0)
    (h : video.created = if response.created = 0 then task.submitTime else response.created) :
    (if response.created = 0 then (applyVideoTaskState now task video).submitTime
      else response.created) = video.created := by
  split_ifs at h ⊢ with hzero
  · dsimp only [applyVideoTaskState]
    split_ifs <;> omega
  · exact h.symm

lemma failReason_applyVideoTaskState
    (h : video.error = none → videoStatusToTaskStatus video.status = .failure →
      task.failReason = "") :
    (applyVideoTaskState now task video).failReason =
      (video.error.map fun e => trimSpace e.message).getD "" := by
  dsimp only [applyVideoTaskState]
  cases hvideo : video.error with
  | some e => rfl
  | none =>
    split_ifs with hstatus
    · rfl
    · exact h hvideo (not_not.mp hstatus)

lemma error_applyVideoTaskState (hf : trimSpace task.failReason = task.failReason)
    (h : video.error = if response.error = none ∧ task.failReason ≠ "" then
        some ⟨task.failReason, "upstream_error", "video_failed"⟩ else response.error) :
    (if response.error = none ∧ (applyVideoTaskState now task video).failReason ≠ "" then
        some ⟨(applyVideoTaskState now task video).failReason, "upstream_error", "video_failed"⟩
      else response.error) = video.error := by
  cases hresponse : response.error with
  | some e =>
    rw [hresponse] at h
    rw [if_neg (by simp), h, if_neg (by simp)]
  | none =>
    rw [hresponse] at h
    by_cases hreason : task.failReason = ""
    · have herror : video.error = none := by rw [h, if_neg (by simp [hreason])]
      have hkept : (applyVideoTaskState now task video).failReason = "" := by
        rw [failReason_applyVideoTaskState fun _ _ => hreason, herror]
        rfl
      rw [herror, hkept, if_neg (by simp)]
    · have herror : video.error = some ⟨task.failReason, "upstream_error", "video_failed"⟩ := by
        rw [h, if_pos ⟨rfl, hreason⟩]
      have hkept : (applyVideoTaskState now task video).failReason = task.failReason := by
        rw [failReason_applyVideoTaskState (by simp [herror]), herror]
        exact hf
      rw [herror, hkept, if_pos ⟨rfl, hreason⟩]

lemma mergeVideoTaskObject_congr {task' : Task} (hstorage : response.storage = none)
    (hurls : urls'.videoExternalDownloadURL = urls.videoExternalDownloadURL)
    (hid : task'.taskID = task.taskID)
    (hproperties : propertiesFromTask task' = propertiesFromTask task)
    (hstatus : mergedStatus task' response = mergedStatus task response)
    (hcreated : (if response.created = 0 then task'.submitTime else response.created) =
      if response.created = 0 then task.submitTime else response.created)
    (herror : mergedStatus task response = .failed →
      (if response.error = none ∧ task'.failReason ≠ "" then
        some ⟨task'.failReason, "upstream_error", "video_failed"⟩ else response.error) =
      if response.error = none ∧ task.failReason ≠ "" then
        some ⟨task.failReason, "upstream_error", "video_failed"⟩ else response.error) :
    mergeVideoTaskObject urls' task' response = mergeVideoTaskObject urls task response := by
  have hcopy : ∀ u : Urls, videoStorageDownloadURL u response = ("", response) := by
    simp [videoStorageDownloadURL, hstorage]
  by_cases hfailed : mergedStatus task response = .failed
  · simp only [mergeVideoTaskObject, hcopy, hurls, hid, hproperties, hstatus, hcreated,
      herror hfailed]
  · simp only [mergeVideoTaskObject, hcopy, hurls, hid, hproperties, hstatus, hcreated,
      if_pos hfailed]

lemma merge_applyVideoTaskState (hp : task.properties ≠ none) (hs : task.submitTime ≠ 0)
    (hf : trimSpace task.failReason = task.failReason) (hstorage : response.storage = none)
    (hurls : urls'.videoExternalDownloadURL = urls.videoExternalDownloadURL) :
    mergeVideoTaskObject urls'
      (applyVideoTaskState now task (mergeVideoTaskObject urls task response))
      response = mergeVideoTaskObject urls task response := by
  have hcopy : videoStorageDownloadURL urls response = ("", response) := by
    simp [videoStorageDownloadURL, hstorage]
  have hcreated : (mergeVideoTaskObject urls task response).created =
      if response.created = 0 then task.submitTime else response.created := by
    simp only [mergeVideoTaskObject, hcopy]
  refine mergeVideoTaskObject_congr hstorage hurls taskID_applyVideoTaskState
    (propertiesFromTask_applyVideoTaskState hp) (mergedStatus_applyVideoTaskState
      (status_mergeVideoTaskObject urls task response))
    ((created_applyVideoTaskState hs hcreated).trans hcreated) fun hfailed => ?_
  have herror : (mergeVideoTaskObject urls task response).error =
      if response.error = none ∧ task.failReason ≠ "" then
        some ⟨task.failReason, "upstream_error", "video_failed"⟩ else response.error := by
    simp only [mergeVideoTaskObject, hcopy, hfailed, ne_eq, not_true_eq_false, if_false]
  exact (error_applyVideoTaskState hf herror).trans herror

lemma failReason_of_merged (hstorage : response.storage = none)
    (herror : (mergeVideoTaskObject urls task response).error = none)
    (hstatus : videoStatusToTaskStatus
    (mergeVideoTaskObject urls task response).status = .failure) :
    task.failReason = "" := by
  have hfailed :=
    (videoStatusToTaskStatus_eq_failure_iff
      (status_mergeVideoTaskObject urls task response)).mp hstatus
  have hcopy : videoStorageDownloadURL urls response = ("", response) := by
    simp [videoStorageDownloadURL, hstorage]
  simp only [mergeVideoTaskObject, hcopy, hfailed, ne_eq, not_true_eq_false, if_false] at herror
  by_contra hreason
  split_ifs at herror with hnone
  exact hnone ⟨herror, hreason⟩

def NoPollErrors (task : Task) : Prop :=
  (propertiesFromTask task).pollErrorCount = 0 ∧ (propertiesFromTask task).lastPollError = "" ∧
    (propertiesFromTask task).lastPollErrorAt = 0

instance (task : Task) : Decidable (NoPollErrors task) := inferInstanceAs (Decidable (_ ∧ _))

lemma clearVideoPollErrors_of_none (h : NoPollErrors task) :
    clearVideoPollErrors task = (false, task) := if_pos h

lemma clearVideoPollErrors_of_some (h : ¬ NoPollErrors task) :
    clearVideoPollErrors task = (true, task.setProperties
      { propertiesFromTask task with
        pollErrorCount := 0, lastPollError := "", lastPollErrorAt := 0 }) :=
  if_neg h

/-- **A provider that answers the same again causes no write.** -/
theorem no_update_of_same_answer (now : ℤ) (task : Task) (response : VideoTaskObject)
    (hp : task.properties ≠ none) (hs : task.submitTime ≠ 0)
    (hf : trimSpace task.failReason = task.failReason) (hstorage : response.storage = none)
    (hurls : urls'.videoExternalDownloadURL = urls.videoExternalDownloadURL) (p : Poll)
    (hresult : p.result = .ok response) :
    let next := applyVideoTaskState now task (mergeVideoTaskObject urls task response)
    videoTaskNeedUpdate next (mergeVideoTaskObject urls' next response) = false ∧
      (NoPollErrors next → pollTask urls' next p = ⟨next, false, false⟩) := by
  intro next
  have hmerge : mergeVideoTaskObject urls' next response =
      mergeVideoTaskObject urls task response :=
    merge_applyVideoTaskState hp hs hf hstorage hurls
  have hneed : videoTaskNeedUpdate next (mergeVideoTaskObject urls' next response) = false := by
    have hreason : next.failReason = _ :=
      failReason_applyVideoTaskState (failReason_of_merged hstorage)
    have hprogress : next.progress =
        videoStatusToProgress (mergeVideoTaskObject urls task response).status := by
      dsimp only [next, applyVideoTaskState]
    have hdata : next.data = some (mergeVideoTaskObject urls task response) := by
      dsimp only [next, applyVideoTaskState]
    rw [hmerge]
    simp only [videoTaskNeedUpdate, hreason, hprogress, hdata, ne_eq, not_true_eq_false, or_false,
      decide_eq_false_iff_not, not_not]
    exact applyVideoTaskState_status
  refine ⟨hneed, fun hnone => ?_⟩
  simp only [pollTask, hresult, clearVideoPollErrors_of_none hnone, hneed, and_self, if_true]

end

/-- A failed answer without a reason, merged into a row that has one. -/
theorem no_update_of_failed_answer : let urls : Urls := ⟨fun _ _ => none, fun _ => ""⟩
    let task : Task :=
      { id := 1, taskID := "v", userId := 1, channelId := 1, quota := 5, action := "IMAGE2VIDEO",
        status := .inProgress, failReason := "busy", submitTime := 7, properties := some {} }
    let response : VideoTaskObject := { status := " Cancelled " }
    let next := applyVideoTaskState 9 task (mergeVideoTaskObject urls task response)
    next.failReason = "busy" ∧ NoPollErrors next ∧
      pollTask urls next { now := 10, result := .ok response } = ⟨next, false, false⟩ := by
  intro urls task response next
  have hurls : urls.videoExternalDownloadURL = urls.videoExternalDownloadURL := rfl
  have hsame := no_update_of_same_answer 9 task response (by decide) (by decide)
      (by decide) rfl hurls
    { now := 10, result := .ok response } rfl
  exact ⟨by decide, by decide, hsame.2 (by decide)⟩

/-! ### Polls in a row -/

section
variable (urls : Urls)

def stored (task : Task) (p : Poll) : Task :=
  if (pollTask urls task p).update ∧ p.updateOk then (pollTask urls task p).task else task

def pollRow (task : Task) (p : Poll) : Option Task :=
  if task.progress = 100 then none else some (stored urls task p)

end

def isError (p : Poll) : Bool :=
  match p.result with
  | .error _ => true
  | .ok _ => false

def Unfailed (p : Poll) : Prop :=
  ∀ response, p.result = .ok response → normalizeVideoStatus response.status ≠ some .failed

def errorsSince (ps : List Poll) : ℕ := (ps.reverse.takeWhile isError).length

@[simp] lemma errorsSince_concat_of_error {ps : List Poll} {p : Poll} (h : isError p = true) :
    errorsSince (ps ++ [p]) = errorsSince ps + 1 := by
  simp [errorsSince, h]

@[simp] lemma errorsSince_concat_of_ok {ps : List Poll} {p : Poll} (h : isError p = false) :
    errorsSince (ps ++ [p]) = 0 := by
  simp [errorsSince, h]

def pollErrorCount (task : Task) : ℕ := (propertiesFromTask task).pollErrorCount

section
variable {urls : Urls} {task row : Task} {p : Poll} {ps before : List Poll}

@[simp] lemma pollErrorCount_setProperties (properties : VideoTaskProperties) :
    pollErrorCount (task.setProperties properties) = properties.pollErrorCount := by
  dsimp only [pollErrorCount, propertiesFromTask, Task.setProperties]
  split_ifs <;> rfl

@[simp] lemma pollErrorCount_applyVideoTaskState (now : ℤ) (video : VideoTaskObject) :
    pollErrorCount (applyVideoTaskState now task video) = pollErrorCount task := by
  dsimp only [applyVideoTaskState, pollErrorCount]
  rw [propertiesFromTask]
  dsimp only
  split_ifs <;> rfl

lemma pollTask_of_not_update (h : (pollTask urls task p).update = false) :
    (pollTask urls task p).task = task := by
  revert h
  unfold pollTask
  split
  · unfold recordVideoPollError
    dsimp only
    split_ifs <;> intro h <;> cases h
  by_cases hnone : NoPollErrors task
  · rw [clearVideoPollErrors_of_none hnone]
    dsimp only
    split_ifs
    · exact fun _ => rfl
    · intro h
      cases h
  · rw [clearVideoPollErrors_of_some hnone]
    dsimp only
    rw [if_neg (by simp)]
    intro h
    cases h

lemma pollErrorCount_recordVideoPollError (now : ℤ) (e : PollError) :
    pollErrorCount (recordVideoPollError urls now task e).task = pollErrorCount task + 1 := by
  unfold recordVideoPollError
  dsimp only
  split_ifs
  · exact pollErrorCount_setProperties _
  · rw [pollErrorCount_applyVideoTaskState, pollErrorCount_setProperties]
    rfl

lemma pollErrorCount_clearVideoPollErrors (task : Task) :
    pollErrorCount (clearVideoPollErrors task).2 = 0 := by
  by_cases hnone : NoPollErrors task
  · rw [clearVideoPollErrors_of_none hnone]
    exact hnone.1
  · rw [clearVideoPollErrors_of_some hnone]
    exact pollErrorCount_setProperties _

lemma pollErrorCount_pollTask (urls : Urls) (task : Task) (p : Poll) :
    pollErrorCount (pollTask urls task p).task =
      if isError p then pollErrorCount task + 1 else 0 := by
  cases hresult : p.result with
  | error e =>
    simp only [pollTask, isError, hresult, if_true]
    exact pollErrorCount_recordVideoPollError p.now e
  | ok response =>
    have hclear := pollErrorCount_clearVideoPollErrors task
    simp only [pollTask, isError, hresult]
    generalize clearVideoPollErrors task = cleared at hclear ⊢
    by_cases hsame :
        videoTaskNeedUpdate cleared.2 (mergeVideoTaskObject urls cleared.2 response) = false ∧
        cleared.1 = false
    · rw [if_pos hsame]
      exact hclear
    · rw [if_neg hsame]
      exact (pollErrorCount_applyVideoTaskState _ _).trans hclear

lemma update_of_pollErrorCount (herror : isError p = false) (hcount : pollErrorCount task ≠ 0) :
    (pollTask urls task p).update = true := by
  by_contra hupdate
  have hkept := pollTask_of_not_update (Bool.eq_false_iff.mpr hupdate)
  have hzero := pollErrorCount_pollTask urls task p
  rw [hkept, herror, if_neg (by simp)] at hzero
  exact hcount hzero

lemma stored_of_updateOk (hok : p.updateOk = true) :
    stored urls task p = (pollTask urls task p).task := by
  unfold stored
  split_ifs with h
  · rfl
  · have hkept : (pollTask urls task p).update = false := by simpa [hok] using h
    exact (pollTask_of_not_update hkept).symm

structure Counted (ps : List Poll) (task : Task) : Prop where
  count : pollErrorCount task = errorsSince ps
  failure : task.status = .failure ↔ errorsSince ps = videoPollErrorFailureThreshold
  le : errorsSince ps ≤ videoPollErrorFailureThreshold
  consistent : task.Consistent

lemma Counted.step (h : Counted ps task) (hp : Unfailed p) (hok : p.updateOk = true)
    (hstep : pollRow urls task p = some row) : Counted (ps ++ [p]) row := by
  unfold pollRow at hstep
  split_ifs at hstep with hprogress
  cases hstep
  have hterm := h.consistent hprogress
  have hlt : errorsSince ps < videoPollErrorFailureThreshold := by
    have hne := mt h.failure.mpr fun hfail => hterm (.inl hfail)
    have hle := h.le
    omega
  have hcount := pollErrorCount_pollTask urls task p
  have hfails := (pollTask_spec urls p hterm).1
  rw [stored_of_updateOk hok]
  cases hresult : p.result with
  | error e =>
    have herror : isError p = true := by simp [isError, hresult]
    rw [herror, if_pos rfl, h.count] at hcount
    rw [hresult] at hfails
    refine ⟨by rw [errorsSince_concat_of_error herror, hcount], ?_, ?_,
      pollTask_consistent urls p h.consistent⟩
    · rw [hfails, errorsSince_concat_of_error herror]
      show videoPollErrorFailureThreshold ≤ pollErrorCount task + 1 ↔ _
      rw [h.count]
      omega
    · rw [errorsSince_concat_of_error herror]
      exact hlt
  | ok response =>
    have herror : isError p = false := by simp [isError, hresult]
    rw [herror, if_neg (by simp)] at hcount
    rw [hresult] at hfails
    refine ⟨by rw [errorsSince_concat_of_ok herror, hcount], ?_, ?_,
      pollTask_consistent urls p h.consistent⟩
    · rw [hfails, errorsSince_concat_of_ok herror]
      exact iff_of_false (hp response hresult) (by decide)
    · rw [errorsSince_concat_of_ok herror]
      exact Nat.zero_le _

lemma counted_run (h : Counted before task) (hp : ∀ p ∈ ps, Unfailed p ∧ p.updateOk = true)
    (hrun : run (pollRow urls) task ps = some row) : Counted (before ++ ps) row := by
  induction ps generalizing before task with
  | nil =>
    cases hrun
    rwa [List.append_nil]
  | cons p ps ih =>
    obtain ⟨next, hnext, hrest⟩ := run_cons.mp hrun
    have hhead := hp p List.mem_cons_self
    have hstep := h.step hhead.1 hhead.2 hnext
    rw [List.append_cons]
    exact ih hstep (fun q hq => hp q (List.mem_cons_of_mem p hq)) hrest

/-- **Twenty poll errors in a row fail a task**; an answer before that resets the counter. -/
theorem failure_iff_errorsSince (before : List Poll) (hprogress : task.progress ≠ 100)
    (hconsistent : task.Consistent) (hcount : pollErrorCount task = errorsSince before)
    (hlt : errorsSince before < videoPollErrorFailureThreshold)
    (hp : ∀ p ∈ ps, Unfailed p ∧ p.updateOk = true) (hrun : run (pollRow urls) task ps = some row) :
    (row.status = .failure ↔ errorsSince (before ++ ps) = 20) ∧
      pollErrorCount row = errorsSince (before ++ ps) ∧
      ∀ p, row.progress ≠ 100 → isError p = false → Unfailed p → p.updateOk = true →
        pollRow urls row p = some (stored urls row p) ∧ pollErrorCount (stored urls row p) = 0 ∧
          (pollErrorCount row ≠ 0 → (pollTask urls row p).update = true) := by
  have hstart : Counted before task := by
    refine ⟨hcount, iff_of_false (fun hfail => ?_) hlt.ne, hlt.le, hconsistent⟩
    exact hconsistent hprogress (.inl hfail)
  have hend := counted_run hstart hp hrun
  refine ⟨hend.failure, hend.count, fun p hrow herror _ hok => ⟨if_neg hrow, ?_, ?_⟩⟩
  · rw [stored_of_updateOk hok, pollErrorCount_pollTask, herror, if_neg (by simp)]
  · exact update_of_pollErrorCount herror

end

/-- The provider cannot be asked twenty times in a row. -/
theorem failure_after_twenty_errors : let urls : Urls := ⟨fun _ _ => none, fun _ => ""⟩
    let task : Task :=
      { id := 1, taskID := "v", userId := 1, channelId := 1, quota := 5, action := "TEXT2VIDEO",
        status := .submitted, submitTime := 7, progress := 10 }
    let polls : List Poll := List.replicate 20 { now := 9, result := .error ⟨"", ""⟩ }
    ∃ row, run (pollRow urls) task polls = some row ∧ row.status = .failure ∧
      pollErrorCount row = 20 := by
  intro urls task polls
  obtain ⟨row, hrow⟩ := Option.isSome_iff_exists.mp
    (show (run (pollRow urls) task polls).isSome = true by decide)
  have hpolls : ∀ p ∈ polls, Unfailed p ∧ p.updateOk = true := by
    intro p hp
    rw [List.eq_of_mem_replicate hp]
    exact ⟨fun _ h => (by cases h), rfl⟩
  have hend := failure_iff_errorsSince [] (by decide) (fun _ => by decide) (by decide)
    (by decide) hpolls hrow
  exact ⟨row, hrow, hend.1.mpr (by decide), hend.2.1.trans (by decide)⟩

end Tokilake.Relay.PollRow
