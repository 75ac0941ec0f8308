import Tokilake.Lib.Run
import Tokilake.Lib.Table
import Tokilake.Relay.VideoTask

/-! # Polling video tasks

A round reads the unfinished rows, keeps them by their upstream id and goes through them channel by
channel.  Orders, answers and outcomes of statements are parts of a label.

* `pollTask_spec`: what one poll does to its row. -/

namespace Tokilake.Relay.Poller

open Lib Lib.Text Relay.VideoTask

/-! ### One poll -/

structure PollError where
  message : String
  code : String
  deriving DecidableEq

/-- The provider's answer, the copy in the object store, and whether the statements succeed. -/
structure Poll where
  now : ℤ
  result : Except PollError VideoTaskObject
  stored : Option VideoStorage := none
  creditOk : Bool := true
  updateOk : Bool := true

structure Polled where
  task : Task
  refund : Bool
  update : Bool

def videoPollErrorMessage (e : PollError) : String :=
  let message := if trimSpace e.message = "" then "get video task failed" else trimSpace e.message
  let code := trimSpace e.code
  if code = "" ∨ code = "<nil>" then message else message ++ " (" ++ code ++ ")"

def videoPollErrorFailureThreshold : ℕ := 20

def recordVideoPollError (urls : Urls) (now : ℤ) (task : Task) (e : PollError) : Polled :=
  let message := videoPollErrorMessage e
  let properties := propertiesFromTask task
  let count := properties.pollErrorCount + 1
  let task := task.setProperties
    { properties with pollErrorCount := count, lastPollError := message, lastPollErrorAt := now }
  if count < videoPollErrorFailureThreshold then ⟨task, false, true⟩
  else
    let failReason := "视频任务轮询连续失败 " ++ toString count ++ " 次: " ++ message
    let video := (videoTaskFromTask urls task).fail ⟨failReason, "upstream_error",
        "video_poll_failed"⟩
    ⟨applyVideoTaskState now task video, ¬ task.Terminal, true⟩

def clearVideoPollErrors (task : Task) : Bool × Task :=
  let properties := propertiesFromTask task
  if properties.pollErrorCount = 0 ∧ properties.lastPollError = "" ∧
    properties.lastPollErrorAt = 0 then
    (false, task)
  else (true, task.setProperties
    { properties with pollErrorCount := 0, lastPollError := "", lastPollErrorAt := 0 })

def persistCompletedVideo (urls : Urls) (stored : Option VideoStorage) (video : VideoTaskObject) :
    VideoTaskObject :=
  match stored with
  | none => video
  | some storage =>
    if normalizeVideoStatus video.status ≠ some .completed ∨
      (videoStorageDownloadURL urls video).1 ≠ ""
    then video
    else { video with storage := some storage, downloadURL := storage.url }

def pollTask (urls : Urls) (task : Task) (p : Poll) : Polled :=
  match p.result with
  | .error e => recordVideoPollError urls p.now task e
  | .ok response =>
    let (pollErrorsCleared, task) := clearVideoPollErrors task
    let merged := mergeVideoTaskObject urls task response
    if videoTaskNeedUpdate task merged = false ∧ pollErrorsCleared = false then ⟨task, false, false⟩
    else
      let next := applyVideoTaskState p.now task (persistCompletedVideo urls p.stored merged)
      ⟨next, next.status = .failure ∧ ¬ task.Terminal, true⟩

/-! ### The table, the memory and the round -/

structure Credit where
  row : ℕ
  userId : ℕ
  quota : ℤ
  deriving DecidableEq

/-- The task table, the refunds made, and the round in progress. -/
structure State where
  tasks : List Task := []
  credits : List Credit := []
  taskM : String → Option Task := fun _ => none
  pending : List (ℕ × List String) := []
  current : List String := []

def State.todo (s : State) : List String := s.current ++ s.pending.flatMap Prod.snd

def State.creditsOf (s : State) (r : ℕ) : List Credit := s.credits.filter fun c => c.row = r

structure Request where
  userId : ℕ
  channelId : ℕ
  quota : ℤ
  mode : String
  properties : VideoTaskProperties
  response : VideoTaskObject
  now : ℤ

inductive Provider
  | missing
  | notVideo
  | video
  deriving DecidableEq

inductive Label
  | insert (req : Request)
  | start (limit : ℕ) (bulkOk : Bool)
  | batch (k : ℕ) (provider : Provider) (bulkOk : Bool)
  | poll (p : Poll)

/-- The row a submission inserts: the provider's first answer is merged into it already. -/
def newTask (urls : Urls) (id : ℕ) (req : Request) : Task :=
  let task : Task :=
    { id, taskID := trimSpace req.response.id, userId := req.userId, channelId := req.channelId,
      quota := req.quota, action := taskActionFromMode req.mode, submitTime := req.now,
      properties := some req.properties }
  applyVideoTaskState req.now task (mergeVideoTaskObject urls task req.response)

def failRow (failReason : Option String) (task : Task) : Task :=
  { task with status := .failure, progress := 100, failReason := failReason.getD task.failReason }

/-- A bulk update of the rows that `p` selects.  Where `p` compares ids, it does so exactly, as
SQLite and PostgreSQL do; a MySQL collation that ignores the case is outside of the model. -/
def bulkFail (p : Task → Bool) (failReason : Option String) (tasks : List Task) : List Task :=
  tasks.map fun task => if p task then failRow failReason task else task

def taskChannelM (rows : List Task) : List (ℕ × List String) :=
  Table.groups Task.channelId Task.taskID rows

section
variable (urls : Urls)

variable (s : State)

def insertTask (req : Request) : Option State :=
  if trimSpace req.response.id = "" then none
  else some { s with tasks := s.tasks ++ [newTask urls s.tasks.length req] }

def getAllUnFinishSyncTasks (tasks : List Task) (limit : ℕ) : List Task :=
  (tasks.filter fun row => row.progress ≠ 100).take limit

/-- Rows without an upstream id are failed; the last row of an id is the one in memory. -/
def State.round (rows : List Task) (bulkOk : Bool) : State :=
  let unnamed := (rows.filter fun row => row.taskID = "").map Task.id
  let named := rows.filter fun row => row.taskID ≠ ""
  { s with
    tasks := if bulkOk then bulkFail (fun row => row.id ∈ unnamed) none s.tasks else s.tasks
    taskM := fun id => named.reverse.find? fun row => row.taskID = id
    pending := taskChannelM named }

/-- A round reads at most 500 unfinished rows, fewer if other platforms have some of them. -/
def start (limit : ℕ) (bulkOk : Bool) : Option State :=
  if s.pending = [] ∧ s.current = [] ∧ limit ≤ 500 then
    some (s.round (getAllUnFinishSyncTasks s.tasks limit) bulkOk)
  else none

def batch (k : ℕ) (provider : Provider) (bulkOk : Bool) : Option State :=
  match s.current, s.pending[k]? with
  | [], some (_, ids) =>
    let pending := s.pending.eraseIdx k
    let failAll := fun reason =>
      if bulkOk then bulkFail (fun row => row.taskID ∈ ids) (some reason) s.tasks else s.tasks
    match provider with
    | .missing => some { s with tasks := failAll "获取渠道信息失败，请联系管理员", pending }
    | .notVideo => some { s with tasks := failAll "获取视频供应商失败，请联系管理员", pending }
    | .video => some { s with pending, current := ids }
  | _, _ => none

def State.written (rest : List String) (id : String) (out : Polled) (p : Poll) : State :=
  { s with
    current := rest
    taskM := Function.update s.taskM id (some out.task)
    tasks := if out.update ∧
      p.updateOk then Table.update Task.id out.task.id (fun _ => out.task) s.tasks
      else s.tasks
    credits := if out.refund ∧ 0 < out.task.quota ∧ p.creditOk then
        s.credits ++ [⟨out.task.id, out.task.userId, out.task.quota⟩]
      else s.credits }

def poll (p : Poll) : Option State :=
  match s.current with
  | [] => none
  | id :: rest =>
    match s.taskM id with
    | none => some { s with current := rest }
    | some task => some (s.written rest id (pollTask urls task p) p)

def step : Label → Option State
  | .insert req => insertTask urls s req
  | .start limit bulkOk => start s limit bulkOk
  | .batch k provider bulkOk => batch s k provider bulkOk
  | .poll p => poll urls s p

end

/-! ### What a poll writes -/

section
variable {s : State} {id : String} {rest : List String} {out : Polled} {p : Poll} {r : ℕ}

lemma written_creditsOf_self (h : out.task.id = r) :
    (s.written rest id out p).creditsOf r = s.creditsOf r ++
      if out.refund ∧ 0 < out.task.quota ∧ p.creditOk then
        [⟨out.task.id, out.task.userId, out.task.quota⟩] else [] := by
  unfold State.creditsOf State.written
  dsimp only
  split_ifs
  · simp [h]
  · simp

lemma written_creditsOf_ne (h : out.task.id ≠ r) :
    (s.written rest id out p).creditsOf r = s.creditsOf r := by
  unfold State.creditsOf State.written
  dsimp only
  split_ifs
  · simp [h]
  · rfl

lemma written_tasks (h : out.task.id = r) : (s.written rest id out p).tasks = s.tasks.map fun old =>
      if old.id = r then if out.update ∧ p.updateOk then out.task else old else old := by
  dsimp only [State.written]
  by_cases hupdate : out.update = true ∧ p.updateOk = true
  · rw [if_pos hupdate, Table.update, h]
    refine List.map_congr_left fun old _ => ?_
    rw [if_pos hupdate]
  · rw [if_neg hupdate]
    simp [hupdate]

end

/-! ### What a poll makes of a task -/

section
variable {urls : Urls} {task : Task} {p : Poll}

def Fails (task : Task) : Except PollError VideoTaskObject → Prop
  | .error _ => videoPollErrorFailureThreshold ≤ (propertiesFromTask task).pollErrorCount + 1
  | .ok response => normalizeVideoStatus response.status = some .failed

instance (task : Task) : (result : Except PollError VideoTaskObject) → Decidable (Fails task result)
  | .error _ => inferInstanceAs (Decidable (_ ≤ _))
  | .ok _ => inferInstanceAs (Decidable (_ = _))

lemma clearVideoPollErrors_status (task : Task) :
    (clearVideoPollErrors task).2.status = task.status := by
  unfold clearVideoPollErrors
  dsimp only
  split_ifs <;> rfl

lemma clearVideoPollErrors_ident (task : Task) :
    (clearVideoPollErrors task).2.ident = task.ident := by
  unfold clearVideoPollErrors
  dsimp only
  split_ifs <;> rfl

lemma clearVideoPollErrors_consistent (h : task.Consistent) :
    (clearVideoPollErrors task).2.Consistent := by
  unfold clearVideoPollErrors
  dsimp only
  split_ifs <;> exact h

lemma persistCompletedVideo_status (stored : Option VideoStorage) (video : VideoTaskObject) :
    (persistCompletedVideo urls stored video).status = video.status := by
  unfold persistCompletedVideo
  split
  · rfl
  · split_ifs <;> rfl

lemma pollTask_ident (urls : Urls) (task : Task) (p : Poll) :
    (pollTask urls task p).task.ident = task.ident := by
  unfold pollTask
  split
  · unfold recordVideoPollError
    dsimp only
    split_ifs <;> simp only [applyVideoTaskState_ident, setProperties_ident]
  have hclear := clearVideoPollErrors_ident task
  generalize clearVideoPollErrors task = cleared at hclear
  dsimp only
  split_ifs <;> simp only [applyVideoTaskState_ident, hclear]

lemma pollTask_consistent (urls : Urls) (p : Poll) (h : task.Consistent) :
    (pollTask urls task p).task.Consistent := by
  unfold pollTask
  split
  · unfold recordVideoPollError
    dsimp only
    split_ifs
    · exact setProperties_consistent h _
    · exact consistent_applyVideoTaskState (fail_status _)
  · have hclear := clearVideoPollErrors_consistent h
    generalize clearVideoPollErrors task = cleared at hclear
    dsimp only
    split_ifs
    · exact hclear
    · exact consistent_applyVideoTaskState
        ((persistCompletedVideo_status _ _).trans (status_mergeVideoTaskObject ..))

lemma pollTask_spec (urls : Urls) (p : Poll) (h : ¬ task.Terminal) :
    ((pollTask urls task p).task.status = .failure ↔ Fails task p.result) ∧
      ((pollTask urls task p).refund = true ↔ Fails task p.result) ∧
      (Fails task p.result → (pollTask urls task p).update = true) := by
  have hfail : task.status ≠ .failure := fun he => h (.inl he)
  unfold pollTask
  split
  · next e he =>
    unfold recordVideoPollError Fails
    rw [he]
    dsimp only
    split_ifs with hcount
    · simp [hfail, hcount]
    · simp only [Task.Terminal, setProperties_status, status_eq_failure_iff (fail_status _)] at h ⊢
      simp [h, not_lt.mp hcount]
  · next response he =>
    unfold Fails
    rw [he]
    dsimp only
    have hstatus := clearVideoPollErrors_status task
    generalize clearVideoPollErrors task = cleared at hstatus
    rw [← hstatus] at hfail
    have hmerged := status_mergeVideoTaskObject urls cleared.2 response
    split_ifs with hsame
    · have hnot : normalizeVideoStatus response.status ≠ some .failed := by
        rw [ne_eq, ← mergedStatus_eq_failed_iff hfail,
          ← videoStatusToTaskStatus_eq_failure_iff hmerged,
          ← status_of_needs_no_update hsame.1]
        exact hfail
      simp [hfail, hnot]
    · have hterm : ¬ cleared.2.Terminal := by rwa [Task.Terminal, hstatus]
      simp only [status_eq_failure_iff ((persistCompletedVideo_status _ _).trans hmerged),
        mergedStatus_eq_failed_iff hfail, hterm, not_false_eq_true, and_true, decide_eq_true_eq,
        implies_true, and_self]

end

end Tokilake.Relay.Poller
