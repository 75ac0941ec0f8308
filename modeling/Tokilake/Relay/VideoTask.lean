import Tokilake.Lib.Text

/-! # Video tasks

How the answer of a provider is merged into a row.  A status that is not known leaves that of the
row.  JSON columns are the values they encode.

* `status_mergeVideoTaskObject`, `consistent_applyVideoTaskState`. -/

namespace Tokilake.Relay.VideoTask

open Lib.Text

/-! ### Status -/

inductive TaskStatus
  | notStart
  | submitted
  | queued
  | inProgress
  | failure
  | success
  | unknown
  deriving DecidableEq

inductive VideoStatus
  | submitted
  | queued
  | processing
  | completed
  | failed
  deriving DecidableEq

def VideoStatus.text : VideoStatus → String
  | .submitted => "submitted"
  | .queued => "queued"
  | .processing => "processing"
  | .completed => "completed"
  | .failed => "failed"

def normalizeVideoStatus (status : String) : Option VideoStatus :=
  match toLower (trimSpace status) with
  | "submitted" => some .submitted
  | "queued" | "pending" => some .queued
  | "processing" | "running" | "in_progress" => some .processing
  | "completed" | "success" | "succeeded" => some .completed
  | "failed" | "failure" | "error" | "cancelled" | "canceled" => some .failed
  | _ => none

def taskStatusToVideoStatus : TaskStatus → VideoStatus
  | .submitted => .submitted
  | .queued => .queued
  | .inProgress => .processing
  | .success => .completed
  | .failure => .failed
  | .notStart | .unknown => .submitted

def videoStatusToTaskStatus (status : String) : TaskStatus :=
  match normalizeVideoStatus status with
  | some .submitted => .submitted
  | some .queued => .queued
  | some .processing => .inProgress
  | some .completed => .success
  | some .failed => .failure
  | none => .unknown

def videoStatusToProgress (status : String) : ℤ :=
  match normalizeVideoStatus status with
  | some .submitted | some .queued => 10
  | some .processing => 60
  | some .completed | some .failed => 100
  | none => 0

/-! ### Rows and answers -/

structure VideoTaskError where
  message : String
  type : String
  code : String
  deriving DecidableEq

structure VideoStorage where
  provider : String
  bucket : String
  key : String
  url : String
  deriving DecidableEq

structure VideoTaskObject where
  id : String := ""
  object : String := ""
  created : ℤ := 0
  model : String := ""
  mode : String := ""
  status : String := ""
  prompt : String := ""
  size : String := ""
  duration : Option ℤ := none
  fps : Option ℤ := none
  seed : Option ℤ := none
  contentURL : String := ""
  downloadURL : String := ""
  storage : Option VideoStorage := none
  error : Option VideoTaskError := none
  deriving DecidableEq

structure VideoTaskProperties where
  model : String := ""
  mode : String := ""
  prompt : String := ""
  size : String := ""
  imageSource : String := ""
  hasImageB64 : Bool := false
  duration : Option ℤ := none
  fps : Option ℤ := none
  seed : Option ℤ := none
  pollErrorCount : ℕ := 0
  lastPollError : String := ""
  lastPollErrorAt : ℤ := 0
  deriving DecidableEq

structure Task where
  id : ℕ
  taskID : String
  userId : ℕ
  channelId : ℕ
  quota : ℤ
  action : String
  status : TaskStatus := .notStart
  failReason : String := ""
  submitTime : ℤ
  startTime : ℤ := 0
  finishTime : ℤ := 0
  progress : ℤ := 0
  properties : Option VideoTaskProperties := none
  data : Option VideoTaskObject := none
  deriving DecidableEq

variable (task : Task)

def Task.setProperties (properties : VideoTaskProperties) : Task :=
  { task with properties := some properties }

def Task.ident : ℕ × String × ℕ × ℤ := (task.id, task.taskID, task.userId, task.quota)

def normalizeVideoMode (mode : String) : String :=
  match toLower (trimSpace mode) with
  | "" | "text2video" => "text2video"
  | "image2video" => "image2video"
  | _ => ""

def taskActionFromMode (mode : String) : String :=
  if normalizeVideoMode mode = "image2video" then "IMAGE2VIDEO" else "TEXT2VIDEO"

def taskModeFromAction (action : String) : String :=
  if (trimSpace action).toList.map Char.toLower = "image2video".toList then "image2video"
    else "text2video"

def propertiesFromTask : VideoTaskProperties :=
  match task.properties with
  | none => {}
  | some properties =>
    if properties.mode = "" then { properties with mode := taskModeFromAction task.action }
      else properties

def firstNonEmptyString (values : List String) : String :=
  (values.map trimSpace).find? (· ≠ "") |>.getD ""

/-! ### Merging -/

/-- The store's address of an object, and the first of some that is an absolute web address. -/
structure Urls where
  getObjectURL : String → String → Option String
  videoExternalDownloadURL : List String → String

def videoStorageDownloadURL (urls : Urls) (video : VideoTaskObject) : String × VideoTaskObject :=
  match video.storage with
  | none => ("", video)
  | some storage =>
    let fresh := if trimSpace storage.key = "" then none
      else (urls.getObjectURL (trimSpace storage.provider) (trimSpace storage.key)).filter
        (trimSpace · ≠ "")
    match fresh with
    | some url =>
      (urls.videoExternalDownloadURL [url], { video with storage := some { storage with url } })
    | none => (urls.videoExternalDownloadURL [storage.url], video)

def mergedStatus (response : VideoTaskObject) : VideoStatus :=
  (normalizeVideoStatus response.status).getD (taskStatusToVideoStatus task.status)

def mergeVideoTaskObject (urls : Urls) (task : Task) (response : VideoTaskObject) :
    VideoTaskObject :=
  let properties := propertiesFromTask task
  let merged := (videoStorageDownloadURL urls response).2
  let upstreamDownloadURL := urls.videoExternalDownloadURL
    [(videoStorageDownloadURL urls response).1, merged.downloadURL, merged.contentURL]
  let id := if trimSpace merged.id = "" then trimSpace task.taskID else merged.id
  let mode := normalizeVideoMode (firstNonEmptyString [merged.mode, properties.mode])
  let status := mergedStatus task response
  let contentURL := "/v1/videos/" ++ trimSpace id ++ "/content"
  { id
    object := if merged.object = "" then "video" else merged.object
    created := if merged.created = 0 then task.submitTime else merged.created
    model := if merged.model = "" then properties.model else merged.model
    mode := if mode = "" then "text2video" else mode
    status := status.text
    prompt := if merged.prompt = "" then properties.prompt else merged.prompt
    size := if merged.size = "" then properties.size else merged.size
    duration := merged.duration <|> properties.duration
    fps := merged.fps <|> properties.fps
    seed := merged.seed <|> properties.seed
    contentURL := if id = "" then merged.contentURL else contentURL
    downloadURL := if id = "" then merged.downloadURL
      else if upstreamDownloadURL = "" then contentURL else upstreamDownloadURL
    storage := merged.storage
    error :=
      if status ≠ .failed then none
      else if merged.error = none ∧ task.failReason ≠ "" then
        some ⟨task.failReason, "upstream_error", "video_failed"⟩
      else merged.error }

def videoTaskFromTask (urls : Urls) (task : Task) : VideoTaskObject :=
  mergeVideoTaskObject urls task (task.data.getD {})

def applyVideoTaskState (now : ℤ) (task : Task) (video : VideoTaskObject) : Task :=
  let status := videoStatusToTaskStatus video.status
  let terminal := status = .success ∨ status = .failure
  { task with
    status
    progress := videoStatusToProgress video.status
    submitTime := if 0 < video.created then video.created
      else if task.submitTime = 0 then now else task.submitTime
    startTime := if task.startTime = 0 ∧
      (status = .inProgress ∨ terminal) then now else task.startTime
    finishTime := if task.finishTime = 0 ∧ terminal then now else task.finishTime
    failReason := match video.error with
      | some e => trimSpace e.message
      | none => if status ≠ .failure then "" else task.failReason
    properties := some (propertiesFromTask task)
    data := some video }

def VideoTaskObject.fail (video : VideoTaskObject) (error : VideoTaskError) : VideoTaskObject :=
  { video with status := VideoStatus.failed.text, error := some error }

def videoTaskNeedUpdate (video : VideoTaskObject) : Bool :=
  let failReason := (video.error.map fun e => trimSpace e.message).getD ""
  task.status ≠ videoStatusToTaskStatus video.status ∨
    task.progress ≠ videoStatusToProgress video.status ∨
    task.failReason ≠ failReason ∨ task.data ≠ some video

/-! ### What a merged answer makes of a row -/

lemma normalizeVideoStatus_text (v : VideoStatus) : normalizeVideoStatus v.text = some v := by
  cases v <;> decide

def Task.Terminal : Prop := task.status = .failure ∨ task.status = .success

instance (task : Task) : Decidable task.Terminal := inferInstanceAs (Decidable (_ ∨ _))

def Task.Consistent : Prop := task.progress ≠ 100 → ¬ task.Terminal

section
variable {now : ℤ} {task : Task} {video : VideoTaskObject} {v : VideoStatus}

@[simp] lemma setProperties_ident (properties : VideoTaskProperties) :
    (task.setProperties properties).ident = task.ident := rfl

@[simp] lemma setProperties_status (properties : VideoTaskProperties) :
    (task.setProperties properties).status = task.status := rfl

@[simp] lemma applyVideoTaskState_ident :
    (applyVideoTaskState now task video).ident = task.ident := by
  dsimp only [applyVideoTaskState, Task.ident]

lemma applyVideoTaskState_status :
    (applyVideoTaskState now task video).status = videoStatusToTaskStatus video.status := by
  dsimp only [applyVideoTaskState]

@[simp] lemma fail_status (error : VideoTaskError) :
    (video.fail error).status = VideoStatus.failed.text := rfl

lemma setProperties_consistent (h : task.Consistent) (properties : VideoTaskProperties) :
    (task.setProperties properties).Consistent := h

lemma videoStatusToTaskStatus_eq_failure_iff (h : video.status = v.text) :
    videoStatusToTaskStatus video.status = .failure ↔ v = .failed := by
  simp only [videoStatusToTaskStatus, h, normalizeVideoStatus_text]
  cases v <;> simp

lemma status_eq_failure_iff (h : video.status = v.text) :
    (applyVideoTaskState now task video).status = .failure ↔ v = .failed := by
  rw [applyVideoTaskState_status, videoStatusToTaskStatus_eq_failure_iff h]

lemma status_of_needs_no_update (h : videoTaskNeedUpdate task video = false) :
    task.status = videoStatusToTaskStatus video.status := by
  simp only [videoTaskNeedUpdate, decide_eq_false_iff_not, not_or, not_not] at h
  exact h.1

lemma consistent_applyVideoTaskState (h : video.status = v.text) :
    (applyVideoTaskState now task video).Consistent := by
  simp only [Task.Consistent, Task.Terminal, applyVideoTaskState, videoStatusToTaskStatus,
    videoStatusToProgress, h, normalizeVideoStatus_text]
  cases v <;> simp

lemma status_mergeVideoTaskObject (urls : Urls) (task : Task) (response : VideoTaskObject) :
    (mergeVideoTaskObject urls task response).status = (mergedStatus task response).text := by
  dsimp only [mergeVideoTaskObject]

lemma mergedStatus_eq_failed_iff (ht : task.status ≠ .failure) (response : VideoTaskObject) :
    mergedStatus task response = .failed ↔ normalizeVideoStatus response.status = some .failed := by
  unfold mergedStatus
  cases normalizeVideoStatus response.status with
  | some v => simp
  | none => cases h : task.status <;> simp [taskStatusToVideoStatus, h] at ht ⊢

end

end Tokilake.Relay.VideoTask
