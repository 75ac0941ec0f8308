import Mathlib.Data.List.Perm.Basic
import Tokilake.Relay.Poller

/-! # One round of the poller

A round regroups the rows by upstream ids, which the workers choose.

* `isolated_iff`: when a round is isolated. -/

namespace Tokilake.Relay.Round

open Lib Relay.VideoTask Relay.Poller List Function

/-- The providers and their answers, the outcomes of the statements, the order of the channels. -/
structure Outside where
  provider : ℕ → Provider := fun _ => .video
  answer : ℕ → String → Poll
  bulkOk : ℕ → Bool := fun _ => true
  nullOk : Bool := true
  order : List (ℕ × List String) → List (ℕ × List String) := id
  ordered : ∀ l, (order l).Perm l := by exact fun l => .refl l

def unavailable : Provider → Option String
  | .missing => some "获取渠道信息失败，请联系管理员"
  | .notVideo => some "获取视频供应商失败，请联系管理员"
  | .video => none

/-- The rows of a platform that a round reads; `mine` tells them by their ids. -/
def rowsRead (mine : ℕ → Bool) (tasks : List Task) : List Task :=
  (getAllUnFinishSyncTasks tasks 500).filter fun row => mine row.id

def placed (s : State) (current : List String) (pending : List (ℕ × List String)) : State :=
  { s with current, pending }

section
variable (urls : Urls) (x : Outside)

def pollId (channelID : ℕ) (s : State) (id : String) : State :=
  match s.taskM id with
  | none => s
  | some task =>
    s.written s.current id (pollTask urls task (x.answer channelID id)) (x.answer channelID id)

def updateTokiameVideoTasks (s : State) (entry : ℕ × List String) : State :=
  match unavailable (x.provider entry.1) with
  | some reason =>
    if x.bulkOk entry.1 then
      { s with tasks := bulkFail (fun row => row.taskID ∈ entry.2) (some reason) s.tasks }
    else s
  | none => entry.2.foldl (pollId urls x entry.1) s

def round (mine : ℕ → Bool) (s : State) : State :=
  let s := s.round (rowsRead mine s.tasks) x.nullOk
  placed ((x.order s.pending).foldl (updateTokiameVideoTasks urls x) s) [] []

end

/-! ### The outcome of a row's own poll -/

section
variable (urls : Urls) (x : Outside)

/-- A row without an upstream id is failed, another gets what its own channel answers. -/
def own (row : Task) : Task :=
  if row.taskID = "" then if x.nullOk then failRow none row else row
  else match unavailable (x.provider row.channelId) with
    | some reason => if x.bulkOk row.channelId then failRow (some reason) row else row
    | none =>
      let p := x.answer row.channelId row.taskID
      if (pollTask urls row p).update ∧ p.updateOk then (pollTask urls row p).task else row

def ownCredits (row : Task) : List Credit :=
  if row.taskID = "" ∨ (unavailable (x.provider row.channelId)).isSome then []
  else
    let p := x.answer row.channelId row.taskID
    if (pollTask urls row p).refund ∧ 0 < (pollTask urls row p).task.quota ∧ p.creditOk then
      [⟨(pollTask urls row p).task.id, (pollTask urls row p).task.userId,
        (pollTask urls row p).task.quota⟩]
    else []

def Unfinished (mine : ℕ → Bool) (row : Task) : Prop := mine row.id = true ∧ row.progress ≠ 100

instance (mine : ℕ → Bool) (row : Task) : Decidable (Unfinished mine row) :=
  inferInstanceAs (Decidable (_ ∧ _))

/-- Every unfinished row got its own outcome and refund, and every other row is as it was. -/
structure Isolated (mine : ℕ → Bool) (s t : State) : Prop where
  rows : t.tasks = s.tasks.map fun row => if Unfinished mine row then own urls x row else row
  credits : ∀ row ∈ s.tasks, t.creditsOf row.id =
    s.creditsOf row.id ++ if Unfinished mine row then ownCredits urls x row else []

end

section
variable {urls : Urls} {x : Outside} {mine : ℕ → Bool} {s t : State} {row other : Task}
  {done : List String} {id : String}

lemma failRow_ident (failReason : Option String) (row : Task) :
    (failRow failReason row).ident = row.ident := rfl

lemma own_ident (row : Task) : (own urls x row).ident = row.ident := by
  unfold own
  by_cases hname : row.taskID = ""
  · rw [if_pos hname]
    split_ifs
    · exact failRow_ident none row
    · rfl
  · rw [if_neg hname]
    cases unavailable (x.provider row.channelId) with
    | some reason =>
      split_ifs
      · exact failRow_ident _ row
      · rfl
    | none =>
      dsimp only
      split_ifs
      · exact pollTask_ident urls row _
      · rfl

lemma id_eq (h : row.ident = other.ident) : row.id = other.id := congrArg Prod.fst h

lemma taskID_eq (h : row.ident = other.ident) : row.taskID = other.taskID :=
  congrArg (fun i => i.2.1) h

/-! ### Rows that their ids tell apart -/

def ToldApart (mine : ℕ → Bool) (tasks : List Task) : Prop :=
  ∀ row ∈ rowsRead mine tasks, row.taskID ≠ "" →
    ∀ other ∈ tasks, other.taskID = row.taskID → other = row

lemma mem_tasks (h : row ∈ rowsRead mine s.tasks) : row ∈ s.tasks ∧ Unfinished mine row := by
  rw [rowsRead, mem_filter] at h
  obtain ⟨hread, hmine⟩ := h
  have hunfinished := mem_of_mem_take hread
  rw [mem_filter, decide_eq_true_eq] at hunfinished
  exact ⟨hunfinished.1, hmine, hunfinished.2⟩

def named (mine : ℕ → Bool) (tasks : List Task) : List Task :=
  (rowsRead mine tasks).filter fun row => row.taskID ≠ ""

lemma mem_named : row ∈ named mine s.tasks ↔ row ∈ rowsRead mine s.tasks ∧ row.taskID ≠ "" := by
  rw [named, mem_filter, decide_eq_true_eq]

def memory (mine : ℕ → Bool) (tasks : List Task) (id : String) : Option Task :=
  (named mine tasks).reverse.find? fun row => row.taskID = id

lemma memory_eq_some (h : memory mine s.tasks id = some row) :
    row ∈ named mine s.tasks ∧ row.taskID = id := by
  have hmem := mem_of_find?_eq_some h
  have hid := find?_some h
  exact ⟨mem_reverse.mp hmem, by simpa using hid⟩

lemma memory_of_toldApart (htold : ToldApart mine s.tasks) (h : row ∈ named mine s.tasks) :
    memory mine s.tasks row.taskID = some row := by
  cases hfind : memory mine s.tasks row.taskID with
  | none =>
    have hno := find?_eq_none.mp hfind row (mem_reverse.mpr h)
    simp at hno
  | some found =>
    obtain ⟨hfound, hid⟩ := memory_eq_some hfind
    obtain ⟨hread, hne⟩ := mem_named.mp h
    rw [htold row hread hne found (mem_tasks (mem_named.mp hfound).1).1 hid]

def channels (x : Outside) (mine : ℕ → Bool) (s : State) : List (ℕ × List String) :=
  x.order (s.round (rowsRead mine s.tasks) x.nullOk).pending

lemma channels_perm :
    (channels x mine s).Perm (Table.groups Task.channelId Task.taskID (named mine s.tasks)) :=
  x.ordered _

lemma mem_channels (h : row ∈ rowsRead mine s.tasks) :
    row.taskID ∈ (channels x mine s).flatMap Prod.snd ↔ row.taskID ≠ "" := by
  rw [(channels_perm.flatMap_right Prod.snd).mem_iff, Table.groups_perm.mem_iff]
  constructor
  · intro hmem
    obtain ⟨found, hfound, hid⟩ := mem_map.mp hmem
    rw [← hid]
    exact (mem_named.mp hfound).2
  · exact fun hne => mem_map_of_mem (mem_named.mpr ⟨h, hne⟩)

/-- The ids of a channel's entry are those of rows of the channel. -/
def Grouped (mine : ℕ → Bool) (tasks : List Task) (entry : ℕ × List String) : Prop :=
  ∀ id ∈ entry.2, ∃ row ∈ named mine tasks, row.taskID = id ∧ row.channelId = entry.1

lemma grouped_channels {entry : ℕ × List String} (hentry : entry ∈ channels x mine s) :
    Grouped mine s.tasks entry := by
  intro id hid
  rw [channels_perm.mem_iff, Table.groups, mem_map] at hentry
  obtain ⟨channelID, -, rfl⟩ := hentry
  obtain ⟨row, hrow, rfl⟩ := mem_map.mp hid
  rw [mem_filter, decide_eq_true_eq] at hrow
  exact ⟨row, hrow.1, rfl, hrow.2⟩

/-- The rows of `done` have their own outcomes, the others are in memory as they were read. -/
structure Sofar (urls : Urls) (x : Outside) (mine : ℕ → Bool) (s : State) (done : List String)
    (t : State) : Prop where
  rows : t.tasks = s.tasks.map fun row =>
    if row ∈ rowsRead mine s.tasks ∧
      (row.taskID = "" ∨ row.taskID ∈ done) then own urls x row else row
  unread : ∀ id, id ∉ done → t.taskM id = memory mine s.tasks id
  credits : ∀ row ∈ s.tasks, t.creditsOf row.id = s.creditsOf row.id ++
    if row ∈ rowsRead mine s.tasks ∧ row.taskID ∈ done then ownCredits urls x row else []

lemma sofar_bulk {channelID : ℕ} {reason : String} (htold : ToldApart mine s.tasks)
    (hgone : unavailable (x.provider channelID) = some reason) (ids : List String)
    (hids : Grouped mine s.tasks (channelID, ids))
    (hnodup : (done ++ ids).Nodup) (h : Sofar urls x mine s done t) :
    Sofar urls x mine s (done ++ ids) (if x.bulkOk channelID then
      { t with tasks := bulkFail (fun row => row.taskID ∈ ids) (some reason) t.tasks } else t) := by
  have hnew : ∀ row ∈ s.tasks, row.taskID ∈ ids →
      row ∈ rowsRead mine s.tasks ∧ row.taskID ≠ "" ∧ row.taskID ∉ done ∧
        row.channelId = channelID := by
    intro row hrow hmem
    obtain ⟨found, hfound, hid, hchannel⟩ := hids _ hmem
    obtain ⟨hread, hne⟩ := mem_named.mp hfound
    obtain rfl := htold found hread hne row hrow hid.symm
    exact ⟨hread, hne, fun hdone => disjoint_of_nodup_append hnodup hdone hmem, hchannel⟩
  have hrows : (if x.bulkOk channelID then
      { t with tasks := bulkFail (fun row => row.taskID ∈ ids) (some reason) t.tasks }
        else t).tasks =
      t.tasks.map fun row =>
        if row.taskID ∈ ids ∧
          x.bulkOk channelID = true then failRow (some reason) row else row := by
    cases x.bulkOk channelID <;> simp [bulkFail]
  refine ⟨?_, fun id hid => ?_, fun row hrow => ?_⟩
  · rw [hrows, h.rows, map_map]
    refine map_congr_left fun row hrow => ?_
    rw [comp_apply]
    by_cases hmem : row.taskID ∈ ids
    · obtain ⟨hread, hne, hnot, hchannel⟩ := hnew row hrow hmem
      simp [hread, hne, hnot, hmem, own, hchannel, hgone]
    have hown : (own urls x row).taskID ∉ ids := by
      rw [taskID_eq (own_ident row)]
      exact hmem
    simp only [mem_append, hmem, or_false]
    rw [if_neg]
    split_ifs
    · exact fun hfail => hown hfail.1
    · exact fun hfail => hmem hfail.1
  · rw [mem_append, not_or] at hid
    split_ifs <;> exact h.unread id hid.1
  · have hcredits : (if x.bulkOk channelID then
        { t with tasks := bulkFail (fun row => row.taskID ∈ ids) (some reason) t.tasks }
        else t).creditsOf row.id = t.creditsOf row.id := by
      split_ifs <;> rfl
    rw [hcredits, h.credits row hrow]
    by_cases hmem : row.taskID ∈ ids
    · obtain ⟨hread, hne, hnot, hchannel⟩ := hnew row hrow hmem
      simp [hnot, hread, hmem, ownCredits, hchannel, hgone]
    · simp [hmem]

section
variable (hkeyed : Table.Keyed Task.id s.tasks)
include hkeyed

lemma eq_of_id (h : row ∈ s.tasks) (h' : other ∈ s.tasks) (hid : row.id = other.id) :
    row = other := inj_on_of_nodup_map hkeyed h h' hid

lemma sofar_nil (urls : Urls) :
    Sofar urls x mine s [] (s.round (rowsRead mine s.tasks) x.nullOk) := by
  refine ⟨?_, fun _ _ => rfl, fun row _ => ?_⟩
  · have hunnamed : ∀ row ∈ s.tasks,
        (row.id ∈ ((rowsRead mine s.tasks).filter fun row => row.taskID = "").map Task.id ↔
          row ∈ rowsRead mine s.tasks ∧ row.taskID = "") := by
      intro row hrow
      rw [mem_map]
      constructor
      · rintro ⟨found, hfound, hid⟩
        rw [mem_filter, decide_eq_true_eq] at hfound
        rw [← eq_of_id hkeyed (mem_tasks hfound.1).1 hrow hid]
        exact hfound
      · exact fun h => ⟨row, mem_filter.mpr ⟨h.1, by simpa using h.2⟩, rfl⟩
    have htasks : (s.round (rowsRead mine s.tasks) x.nullOk).tasks = s.tasks.map fun row =>
        if row ∈ rowsRead mine s.tasks ∧ row.taskID = "" then
          if x.nullOk then failRow none row else row
        else row := by
      dsimp only [State.round]
      cases x.nullOk with
      | true =>
        refine map_congr_left fun row hrow => ?_
        simp only [hunnamed row hrow, decide_eq_true_eq, if_true]
      | false => simp
    rw [htasks]
    refine map_congr_left fun row _ => ?_
    by_cases hnull : row ∈ rowsRead mine s.tasks ∧ row.taskID = ""
    · simp [hnull, own]
    · rw [if_neg hnull, if_neg fun h => hnull ⟨h.1, by simpa using h.2⟩]
  · simp [State.round, State.creditsOf]

variable (htold : ToldApart mine s.tasks)
include htold

lemma sofar_pollId (h : Sofar urls x mine s done t) (hrow : row ∈ named mine s.tasks)
    (hnot : row.taskID ∉ done) (hvideo : unavailable (x.provider row.channelId) = none) :
    Sofar urls x mine s (done ++ [row.taskID]) (pollId urls x row.channelId t row.taskID) := by
  obtain ⟨hread, hne⟩ := mem_named.mp hrow
  have hmemory : t.taskM row.taskID = some row := by
    rw [h.unread _ hnot, memory_of_toldApart htold hrow]
  have hother : ∀ other ∈ s.tasks, other ≠ row → other.id ≠ row.id ∧ other.taskID ≠ row.taskID :=
    fun other hmem hdiff => ⟨fun hid => hdiff (eq_of_id hkeyed hmem (mem_tasks hread).1 hid),
      fun hsame => hdiff (htold row hread hne other hmem hsame)⟩
  have hid : (pollTask urls row (x.answer row.channelId row.taskID)).task.id = row.id :=
    id_eq (pollTask_ident urls row _)
  rw [pollId, hmemory]
  refine ⟨?_, fun id hnew => ?_, fun other hmem => ?_⟩
  · rw [written_tasks hid, h.rows, map_map]
    refine map_congr_left fun old hold => ?_
    rw [comp_apply]
    by_cases hsame : old = row
    · subst hsame
      rw [if_neg (show ¬ (old ∈ rowsRead mine s.tasks ∧ (old.taskID = "" ∨ old.taskID ∈ done)) from
          fun h => h.2.elim hne hnot), if_pos rfl, if_pos (show old ∈ rowsRead mine s.tasks ∧
          (old.taskID = "" ∨ old.taskID ∈ done ++ [old.taskID]) from ⟨hread, .inr (by simp)⟩),
        own, if_neg hne, hvideo]
    · obtain ⟨hold, hname⟩ := hother old hold hsame
      have hdone : old.taskID ∈ done ++ [row.taskID] ↔ old.taskID ∈ done := by simp [hname]
      simp only [hdone]
      rw [if_neg]
      split_ifs
      · rw [id_eq (own_ident old)]
        exact hold
      · exact hold
  · rw [mem_append, mem_singleton, not_or] at hnew
    dsimp only [State.written]
    rw [update_of_ne hnew.2, h.unread id hnew.1]
  · by_cases hsame : other = row
    · subst hsame
      rw [written_creditsOf_self hid, h.credits other hmem]
      simp [hnot, hread, ownCredits, hne, hvideo]
    · obtain ⟨hdiff, hname⟩ := hother other hmem hsame
      rw [written_creditsOf_ne (hid.trans_ne hdiff.symm), h.credits other hmem]
      simp [hname]

lemma sofar_polls {channelID : ℕ} (hvideo : unavailable (x.provider channelID) = none)
    (ids : List String)
    (hids : Grouped mine s.tasks (channelID, ids))
    (hnodup : (done ++ ids).Nodup) (h : Sofar urls x mine s done t) :
    Sofar urls x mine s (done ++ ids) (ids.foldl (pollId urls x channelID) t) := by
  induction ids generalizing done t with
  | nil => simpa using h
  | cons id ids ih =>
    obtain ⟨row, hrow, rfl, rfl⟩ := hids id mem_cons_self
    rw [← singleton_append, ← append_assoc] at hnodup ⊢
    have hnot : row.taskID ∉ done := by
      intro hmem
      have hdisjoint := disjoint_of_nodup_append (nodup_append.mp hnodup).1
      exact hdisjoint hmem (by simp)
    exact ih (fun id hid => hids id (mem_cons_of_mem _ hid)) hnodup
      (sofar_pollId hkeyed htold h hrow hnot hvideo)

lemma sofar_update {entry : ℕ × List String}
    (hids : Grouped mine s.tasks entry)
    (hnodup : (done ++ entry.2).Nodup) (h : Sofar urls x mine s done t) :
    Sofar urls x mine s (done ++ entry.2) (updateTokiameVideoTasks urls x t entry) := by
  unfold updateTokiameVideoTasks
  cases havailable : unavailable (x.provider entry.1) with
  | some reason => exact sofar_bulk htold havailable entry.2 hids hnodup h
  | none => exact sofar_polls hkeyed htold havailable entry.2 hids hnodup h

lemma sofar_updates (order : List (ℕ × List String))
    (hids : ∀ entry ∈ order, Grouped mine s.tasks entry)
    (hnodup : (done ++ order.flatMap Prod.snd).Nodup) (h : Sofar urls x mine s done t) :
    Sofar urls x mine s (done ++ order.flatMap Prod.snd)
      (order.foldl (updateTokiameVideoTasks urls x) t) := by
  induction order generalizing done t with
  | nil => simpa using h
  | cons entry order ih =>
    rw [flatMap_cons, ← append_assoc] at hnodup ⊢
    have hfirst := sofar_update hkeyed htold (hids entry mem_cons_self)
      (nodup_append.mp hnodup).1 h
    exact ih (fun entry' hentry => hids entry' (mem_cons_of_mem _ hentry)) hnodup hfirst

lemma nodup_channels : ((channels x mine s).flatMap Prod.snd).Nodup := by
  rw [(channels_perm.flatMap_right Prod.snd).nodup_iff]
  rw [Table.groups_perm.nodup_iff]
  refine List.Nodup.map_on ?_ ?_
  · intro row hrow other hother hsame
    obtain ⟨hread, hne⟩ := mem_named.mp hother
    exact htold other hread hne row (mem_tasks (mem_named.mp hrow).1).1 hsame
  · have htasks : s.tasks.Nodup := List.Nodup.of_map _ hkeyed
    exact ((htasks.filter _).sublist (take_sublist _ _)).filter _ |>.filter _

lemma sofar_round (urls : Urls) : Sofar urls x mine s ((channels x mine s).flatMap Prod.snd)
    ((channels x mine s).foldl (updateTokiameVideoTasks urls x)
      (s.round (rowsRead mine s.tasks) x.nullOk)) :=
  sofar_updates hkeyed htold _ (fun _ => grouped_channels) (nodup_channels hkeyed htold)
    (sofar_nil hkeyed urls)

lemma isolated_round (hall : ∀ row ∈ s.tasks, Unfinished mine row → row ∈ rowsRead mine s.tasks) :
    Isolated urls x mine s (round urls x mine s) := by
  have hsofar := sofar_round (x := x) hkeyed htold urls
  have hread : ∀ row ∈ s.tasks, row ∈ rowsRead mine s.tasks ↔ Unfinished mine row := fun row hrow =>
    ⟨fun h => (mem_tasks h).2, hall row hrow⟩
  refine ⟨hsofar.rows.trans (map_congr_left fun row hrow => ?_), fun row hrow => ?_⟩
  · by_cases hunfinished : Unfinished mine row
    · have hin := (hread row hrow).mpr hunfinished
      rw [if_pos hunfinished, if_pos ⟨hin, by rw [mem_channels hin]; exact em _⟩]
    · rw [if_neg hunfinished, if_neg fun h => hunfinished ((hread row hrow).mp h.1)]
  · refine (hsofar.credits row hrow).trans (congrArg _ ?_)
    by_cases hunfinished : Unfinished mine row
    · have hin := (hread row hrow).mpr hunfinished
      rw [if_pos hunfinished]
      by_cases hne : row.taskID = ""
      · rw [if_neg fun h => (mem_channels hin).mp h.2 hne, ownCredits, if_pos (.inl hne)]
      · rw [if_pos ⟨hin, (mem_channels hin).mpr hne⟩]
    · rw [if_neg hunfinished, if_neg fun h => hunfinished ((hread row hrow).mp h.1)]

end

/-! ### Rows that they do not tell apart -/

def completed : Poll where
  now := 0
  result := .ok { status := "completed" }

def allCompleted : Outside where
  answer := fun _ _ => completed

lemma pollTask_completed (urls : Urls) (h : row.progress ≠ 100) :
    (pollTask urls row completed).update = true ∧
      (pollTask urls row completed).task.progress = 100 := by
  have hprogress : (clearVideoPollErrors row).2.progress = row.progress := by
    unfold clearVideoPollErrors
    dsimp only
    split_ifs <;> rfl
  unfold pollTask completed
  dsimp only
  generalize clearVideoPollErrors row = cleared at hprogress
  have hmerged : (mergeVideoTaskObject urls cleared.2 { status := "completed" }).status =
      VideoStatus.completed.text := by
    rfl
  have hdone : videoStatusToProgress VideoStatus.completed.text = 100 := by decide
  have hneeds : videoTaskNeedUpdate cleared.2
      (mergeVideoTaskObject urls cleared.2 { status := "completed" }) = true := by
    unfold videoTaskNeedUpdate
    rw [hmerged, hdone, hprogress]
    simp [h]
  rw [if_neg (by simp [hneeds])]
  refine ⟨rfl, ?_⟩
  dsimp only [applyVideoTaskState]
  rw [persistCompletedVideo_status, hmerged, hdone]

lemma own_completed (urls : Urls) (h : row.progress ≠ 100) :
    (own urls allCompleted row).progress = 100 := by
  unfold own
  by_cases hname : row.taskID = ""
  · rw [if_pos hname]
    rfl
  obtain ⟨hupdate, hprogress⟩ := pollTask_completed urls h
  rw [if_neg hname]
  change (if (pollTask urls row completed).update = true ∧ completed.updateOk = true then
    (pollTask urls row completed).task else row).progress = 100
  rw [if_pos ⟨hupdate, rfl⟩, hprogress]

structure Kept (row : Task) (t : State) : Prop where
  stored : row ∈ t.tasks
  absent : ∀ id task, t.taskM id = some task → task.id ≠ row.id

lemma kept_pollId {channelID : ℕ} (h : Kept row t) : Kept row (pollId urls x channelID t id) := by
  unfold pollId
  cases hmemory : t.taskM id with
  | none => exact h
  | some task =>
    have hid : (pollTask urls task (x.answer channelID id)).task.id ≠ row.id := by
      rw [id_eq (pollTask_ident urls task _)]
      exact h.absent id task hmemory
    refine ⟨?_, fun id' task' htask => ?_⟩
    · dsimp only [State.written]
      split_ifs
      · exact Table.mem_update.mpr (.inl ⟨h.stored, hid.symm⟩)
      · exact h.stored
    · dsimp only [State.written] at htask
      by_cases hsame : id' = id
      · subst hsame
        rw [update_self, Option.some.injEq] at htask
        rw [← htask]
        exact hid
      · rw [update_of_ne hsame] at htask
        exact h.absent id' task' htask

lemma kept_updates (order : List (ℕ × List String)) (h : Kept row t) :
    Kept row (order.foldl (updateTokiameVideoTasks urls allCompleted) t) := by
  have hpolls : ∀ channelID (ids : List String) t, Kept row t →
      Kept row (ids.foldl (pollId urls allCompleted channelID) t) := by
    intro channelID ids
    induction ids with
    | nil => exact fun t h => h
    | cons id ids ih => exact fun t h => ih _ (kept_pollId h)
  induction order generalizing t with
  | nil => exact h
  | cons entry order ih => exact ih (hpolls entry.1 entry.2 t h)

section
variable (hkeyed : Table.Keyed Task.id s.tasks)
include hkeyed

lemma mem_round (hrow : row ∈ s.tasks) (h : row ∈ rowsRead mine s.tasks → row.taskID ≠ "") :
    row ∈ (s.round (rowsRead mine s.tasks) x.nullOk).tasks := by
  rw [(sofar_nil hkeyed ⟨fun _ _ => none, fun _ => ""⟩).rows, mem_map]
  refine ⟨row, hrow, if_neg ?_⟩
  rintro ⟨hread, hname | hmem⟩
  · exact h hread hname
  · cases hmem

lemma isolated_mem (h : Isolated urls x mine s t) (hother : other ∈ t.tasks)
    (hsame : other.ident = row.ident) (hrow : row ∈ s.tasks) :
    other = if Unfinished mine row then own urls x row else row := by
  rw [h.rows, mem_map] at hother
  obtain ⟨old, hold, rfl⟩ := hother
  have hident : (if Unfinished mine old then own urls x old else old).ident = old.ident := by
    split_ifs
    · exact own_ident old
    · rfl
  obtain rfl := eq_of_id hkeyed hold hrow (id_eq (hident.symm.trans hsame))
  rfl

lemma read_of_isolated (h : Isolated urls allCompleted mine s (round urls allCompleted mine s))
    (hrow : row ∈ s.tasks) (hunfinished : Unfinished mine row) : row ∈ rowsRead mine s.tasks ∧
      (row.taskID ≠ "" → memory mine s.tasks row.taskID = some row) := by
  by_contra hnot
  have hkept : Kept row (s.round (rowsRead mine s.tasks) allCompleted.nullOk) := by
    refine ⟨mem_round hkeyed hrow fun hread hname => hnot ⟨hread, fun hne => absurd hname hne⟩, ?_⟩
    intro id task htask hid
    obtain ⟨hnamed, htaskID⟩ := memory_eq_some htask
    obtain ⟨hread, hne⟩ := mem_named.mp hnamed
    obtain rfl := eq_of_id hkeyed (mem_tasks hread).1 hrow hid
    subst htaskID
    exact hnot ⟨hread, fun _ => htask⟩
  have hown := isolated_mem hkeyed h (kept_updates _ hkept).stored rfl hrow
  rw [if_pos hunfinished] at hown
  have hprogress := own_completed urls hunfinished.2
  rw [← hown] at hprogress
  exact hunfinished.2 hprogress

end

def noneAvailable (provider : Provider) : Outside where
  provider := fun _ => provider
  answer := fun _ _ => completed

lemma mem_updates_unavailable (urls : Urls) {provider : Provider} {reason : String}
    (hgone : unavailable provider = some reason) (order : List (ℕ × List String))
    (h : row ∈ t.tasks) :
    (if row.taskID ∈ order.flatMap Prod.snd then failRow (some reason) row else row) ∈
      (order.foldl (updateTokiameVideoTasks urls (noneAvailable provider)) t).tasks := by
  induction order generalizing row t with
  | nil => simpa using h
  | cons entry order ih =>
    have hfirst : (if row.taskID ∈ entry.2 then failRow (some reason) row else row) ∈
        (updateTokiameVideoTasks urls (noneAvailable provider) t entry).tasks := by
      unfold updateTokiameVideoTasks
      rw [show unavailable ((noneAvailable provider).provider entry.1) = some reason from hgone]
      simpa [noneAvailable, bulkFail] using
        mem_map_of_mem h
    rw [foldl_cons, flatMap_cons]
    by_cases hmem : row.taskID ∈ entry.2
    · -- a row that has failed stays as it is
      have hrest := ih hfirst
      rw [if_pos (mem_append_left _ hmem)]
      split_ifs at hrest <;> exact hrest
    · rw [if_neg hmem] at hfirst
      have hrest := ih hfirst
      split_ifs at hrest with hlater
      · rwa [if_pos (mem_append_right _ hlater)]
      · rwa [if_neg fun h => (mem_append.mp h).elim hmem hlater]

lemma failReason_of_isolated {provider : Provider} {reason : String}
    (hkeyed : Table.Keyed Task.id s.tasks)
    (h : Isolated urls (noneAvailable provider) mine s (round urls (noneAvailable provider) mine s))
    (hgone : unavailable provider = some reason) (hrow : row ∈ rowsRead mine s.tasks)
    (hne : row.taskID ≠ "") (hother : other ∈ s.tasks) (hsame : other.taskID = row.taskID)
    (hnot : ¬ Unfinished mine other) : other.failReason = reason := by
  have hstart : other ∈ (s.round (rowsRead mine s.tasks) (noneAvailable provider).nullOk).tasks :=
    mem_round hkeyed hother fun _ => hsame ▸ hne
  have hmem := mem_updates_unavailable urls hgone (channels (noneAvailable provider) mine s) hstart
  have hid : other.taskID ∈ (channels (noneAvailable provider) mine s).flatMap Prod.snd := by
    rw [hsame]
    exact (mem_channels hrow).mpr hne
  rw [if_pos hid] at hmem
  have hfailed := isolated_mem hkeyed h hmem (failRow_ident _ other) hother
  rw [if_neg hnot] at hfailed
  exact (congrArg Task.failReason hfailed).symm

end

/-- **When a round is isolated**: all rows are read, and no other row has the id of one of them. -/
theorem isolated_iff (urls : Urls) (mine : ℕ → Bool) (s : State)
    (hkeyed : Table.Keyed Task.id s.tasks) : (∀ x, Isolated urls x mine s (round urls x mine s)) ↔
      (∀ row ∈ s.tasks, Unfinished mine row → row ∈ rowsRead mine s.tasks) ∧
      ToldApart mine s.tasks := by
  constructor
  · intro h
    have hread : ∀ row ∈ s.tasks, Unfinished mine row → row ∈ rowsRead mine s.tasks :=
      fun row hrow hunfinished => (read_of_isolated hkeyed (h allCompleted) hrow hunfinished).1
    refine ⟨hread, fun row hrow hne other hother hsame => ?_⟩
    by_cases hunfinished : Unfinished mine other
    · -- both are read, and memory has one row for the id
      obtain ⟨hmem, hunfinished'⟩ := mem_tasks hrow
      have hfirst := (read_of_isolated hkeyed (h allCompleted) hmem hunfinished').2 hne
      have hsecond := (read_of_isolated hkeyed (h allCompleted) hother hunfinished).2 (hsame ▸ hne)
      rw [hsame, hfirst, Option.some.injEq] at hsecond
      exact hsecond.symm
    · -- the statements that fail the tasks of a channel would hit the other row
      exfalso
      have hfails : ∀ provider reason, unavailable provider = some reason →
          other.failReason = reason := fun provider reason hgone =>
        failReason_of_isolated hkeyed (h (noneAvailable provider)) hgone hrow hne hother hsame
          hunfinished
      have hreasons := (hfails .missing _ rfl).symm.trans (hfails .notVideo _ rfl)
      exact absurd hreasons (by decide)
  · rintro ⟨hread, htold⟩ x
    exact isolated_round hkeyed htold hread

def noUrls : Urls := ⟨fun _ _ => none, fun _ => ""⟩

def twoTasks (first second : String) : State where
  tasks :=
    [{ id := 0, taskID := first, userId := 1, channelId := 1, quota := 100, action := "TEXT2VIDEO",
       status := .submitted, submitTime := 1, progress := 10 },
     { id := 1, taskID := second, userId := 2, channelId := 2, quota := 200, action := "TEXT2VIDEO",
       status := .submitted, submitTime := 1, progress := 10 }]

def firstFails : Outside where
  answer := fun channelID _ =>
    { now := 2, result := .ok { status := if channelID = 1 then "failed" else "completed" } }

/-- With two ids the first user's task fails and is refunded, the second user's is done. -/
theorem isolated_iff_two_ids : Isolated noUrls firstFails (fun _ => true) (twoTasks "a" "b")
      (round noUrls firstFails (fun _ => true) (twoTasks "a" "b")) :=
  (isolated_iff noUrls (fun _ => true) (twoTasks "a" "b") (by unfold Table.Keyed; decide)).mpr
    ⟨by decide, by unfold ToldApart; decide⟩ firstFails

/-- The second user's task is refunded for the failure of the first, which is skipped. -/
theorem same_upstream_id : (round noUrls firstFails (fun _ => true) (twoTasks "v" "v")).tasks.map
      (fun row => (row.userId, row.status, row.progress)) =
        [(1, .submitted, 10), (2, .success, 100)] ∧
    (round noUrls firstFails (fun _ => true) (twoTasks "v" "v")).credits = [⟨1, 2, 200⟩] ∧
    ¬ Isolated noUrls firstFails (fun _ => true) (twoTasks "v" "v")
      (round noUrls firstFails (fun _ => true) (twoTasks "v" "v")) := by
  refine ⟨by decide, by decide, fun h => ?_⟩
  exact absurd (congrArg (map Task.progress) h.rows) (by decide)

end Tokilake.Relay.Round
