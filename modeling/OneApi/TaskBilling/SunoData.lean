import OneApi.Lib.Table
import OneApi.TaskBilling.Polling

/-!
# The data of Suno tasks

`updateSunoTasks` compares a report with the stored task before it writes, and compares the data with their bytes
sorted.  A report whose data has the bytes of the stored data in another order is taken for no change.

Data are the bytes `Marshal` writes.  What they say as JSON is any function `value` of them.  The copies of a pass
are the rows, so each conditional update is won.
-/

namespace OneApi.TaskBilling.Polling

open OneApi.Lib

/-- The stored tasks by their upstream id, and the ids written. -/
abbrev SunoPass := Table Task getUpstreamTaskId × List String

/-- One item of the answer. -/
def sunoItem (pass : SunoPass) (report : String × SunoDataResponse) : SunoPass :=
  match pass.1.find report.1 with
  | none => pass
  | some task =>
    if taskNeedsUpdate task report.2 then
      (pass.1.save (updateSunoTask report.2 true task task).1, report.1 :: pass.2)
    else pass

def updateSunoTasks (tasks : Table Task getUpstreamTaskId) (answer : List (String × SunoDataResponse)) : SunoPass :=
  answer.foldl sunoItem (tasks, [])

/-- A report that agrees with the task in all but the data. -/
def Agrees (task : Task) (item : SunoDataResponse) : Prop :=
  task.submitTime = item.submitTime ∧ task.startTime = item.startTime ∧ task.finishTime = item.finishTime ∧
    some task.status = item.status ∧ task.failReason = item.failReason ∧
    ¬(isDone task.status ∧ task.progress ≠ "100%")

theorem needsUpdate_iff (task : Task) (item : SunoDataResponse) :
    taskNeedsUpdate task item ↔ ¬(Agrees task item ∧ task.data.Perm item.data) := by
  rw [taskNeedsUpdate, Agrees]
  tauto

/-- What becomes of a task. -/
def sunoStored (item : SunoDataResponse) (task : Task) : Task :=
  if taskNeedsUpdate task item then sunoApply task item else task

variable {pass : SunoPass} {id : String} {item : SunoDataResponse} {task : Task}
  {answer : List (String × SunoDataResponse)}

theorem updateSunoTask_won (h : taskNeedsUpdate task item) : (updateSunoTask item true task task).1 = sunoApply task item := by
  simp [updateSunoTask, h, updateWithStatus]

theorem sunoItem_of_ne {report : String × SunoDataResponse} (h : id ≠ report.1) :
    (sunoItem pass report).1.find id = pass.1.find id ∧ (id ∈ (sunoItem pass report).2 ↔ id ∈ pass.2) := by
  rw [sunoItem]
  split
  · exact ⟨rfl, Iff.rfl⟩
  split
  next task hfind hneeds =>
    have hkey : getUpstreamTaskId (sunoApply task report.2) = report.1 :=
      show getUpstreamTaskId task = _ from Table.find_key hfind
    rw [updateSunoTask_won hneeds, List.mem_cons]
    exact ⟨Table.find_save_of_ne (hkey ▸ h), or_iff_right h⟩
  next => exact ⟨rfl, Iff.rfl⟩

theorem sunoItem_self (h : pass.1.find id = some task) :
    (sunoItem pass (id, item)).1.find id = some (sunoStored item task) ∧
      (id ∈ (sunoItem pass (id, item)).2 ↔ taskNeedsUpdate task item ∨ id ∈ pass.2) := by
  rw [sunoItem, h, sunoStored]
  by_cases hneeds : taskNeedsUpdate task item
  · have hkey : getUpstreamTaskId (sunoApply task item) = id :=
      show getUpstreamTaskId task = _ from Table.find_key h
    simp only [hneeds, if_true, updateSunoTask_won hneeds]
    exact ⟨hkey ▸ Table.find_save_self (hkey.symm ▸ h), iff_of_true List.mem_cons_self (.inl trivial)⟩
  · simp only [hneeds, if_false]
    exact ⟨h, by rw [false_or]⟩

theorem sunoRun_of_not_mem (h : id ∉ answer.map Prod.fst) (pass : SunoPass) :
    (answer.foldl sunoItem pass).1.find id = pass.1.find id ∧
      (id ∈ (answer.foldl sunoItem pass).2 ↔ id ∈ pass.2) := by
  induction answer generalizing pass with
  | nil => exact ⟨rfl, Iff.rfl⟩
  | cons report answer ih =>
    rw [List.map_cons, List.mem_cons, not_or] at h
    obtain ⟨hfind, hmem⟩ := ih h.2 (sunoItem pass report)
    obtain ⟨hfind', hmem'⟩ := @sunoItem_of_ne pass id report h.1
    exact ⟨hfind.trans hfind', hmem.trans hmem'⟩

/-- The ids are distinct, so a task meets its report once. -/
theorem sunoRun_of_mem (hnodup : (answer.map Prod.fst).Nodup) (hmem : (id, item) ∈ answer)
    (h : pass.1.find id = some task) :
    (answer.foldl sunoItem pass).1.find id = some (sunoStored item task) ∧
      (id ∈ (answer.foldl sunoItem pass).2 ↔ taskNeedsUpdate task item ∨ id ∈ pass.2) := by
  induction answer generalizing pass with
  | nil => cases hmem
  | cons report answer ih =>
    rw [List.map_cons, List.nodup_cons] at hnodup
    obtain rfl | hmem := List.mem_cons.mp hmem
    · obtain ⟨hfind, hwritten⟩ := sunoRun_of_not_mem hnodup.1 (sunoItem pass (id, item))
      obtain ⟨hself, hself'⟩ := @sunoItem_self pass id item task h
      exact ⟨hfind.trans hself, hwritten.trans hself'⟩
    · have hne : id ≠ report.1 := fun heq => hnodup.1 (heq ▸ List.mem_map_of_mem hmem)
      obtain ⟨hfind, hwritten⟩ := @sunoItem_of_ne pass id report hne
      obtain ⟨hrest, hrest'⟩ := ih hnodup.2 hmem (hfind.trans h)
      exact ⟨hrest, hrest'.trans (or_congr_right hwritten)⟩

/-- A pass stores the reported data of every task, and writes no task its report agrees with, if and only if
no report has the bytes of the stored data in an order that says something else. -/
theorem suno_data_stored_iff {V : Type} (value : List UInt8 → V) (tasks : Table Task getUpstreamTaskId)
    (answer : Table (String × SunoDataResponse) Prod.fst) :
    (∀ id item task, (id, item) ∈ answer.rows → tasks.find id = some task →
      (∃ stored, (updateSunoTasks tasks answer.rows).1.find id = some stored ∧
        value stored.data = value item.data) ∧
      (Agrees task item → task.data = item.data → id ∉ (updateSunoTasks tasks answer.rows).2)) ↔
    ∀ id item task, (id, item) ∈ answer.rows → tasks.find id = some task → Agrees task item →
      task.data.Perm item.data → value task.data = value item.data := by
  have hrun := fun id item task (hmem : (id, item) ∈ answer.rows) (hfind : tasks.find id = some task) =>
    @sunoRun_of_mem (tasks, []) id item task answer.rows answer.keys_nodup hmem hfind
  constructor
  · intro h id item task hmem hfind hagrees hperm
    obtain ⟨stored, hstored, hvalue⟩ := (h id item task hmem hfind).1
    have hskip : ¬taskNeedsUpdate task item := fun hneeds => (needsUpdate_iff task item).mp hneeds ⟨hagrees, hperm⟩
    have hsame := hstored.symm.trans (hrun id item task hmem hfind).1
    rw [sunoStored, if_neg hskip] at hsame
    obtain rfl := Option.some.inj hsame
    exact hvalue
  · intro h id item task hmem hfind
    obtain ⟨hstored, hwritten⟩ := hrun id item task hmem hfind
    refine ⟨⟨_, hstored, ?_⟩, fun hagrees hdata hmem' => ?_⟩
    · by_cases hneeds : taskNeedsUpdate task item
      · rw [sunoStored, if_pos hneeds]
        rfl
      · rw [sunoStored, if_neg hneeds]
        obtain ⟨hagrees, hperm⟩ := not_not.mp (mt (needsUpdate_iff task item).mpr hneeds)
        exact h id item task hmem hfind hagrees hperm
    · obtain hneeds | hnone := hwritten.mp hmem'
      · exact (needsUpdate_iff task item).mp hneeds ⟨hagrees, hdata ▸ List.Perm.refl _⟩
      · cases hnone

/-- The stored number is `12` and the reported one `21`. -/
def staleTask : Task := ⟨"task_1", "", .inProgress, "", 1, 2, 0, "50%", 10, "", [0x31, 0x32]⟩

theorem suno_change_missed :
    let item : SunoDataResponse := ⟨some .inProgress, "", 1, 2, 0, [0x32, 0x31]⟩
    (updateSunoTasks (.single staleTask) [("task_1", item)]).1.find "task_1" = some staleTask ∧
      staleTask.data ≠ item.data := by
  decide

end OneApi.TaskBilling.Polling
