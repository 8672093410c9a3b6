import TaskGen.Proofs.Run.Effects

/-!
The numbers that the loop keeps beside its queues.  Those of the abstract tasks that are pending
and of the requirements that will end are at any time the ones that can be counted.
-/

namespace TaskGen

namespace WorkItem

def isAbstract : WorkItem → Bool
  | .abstractTask _ => true
  | .task _ => false

@[simp] theorem isAbstract_abstractTask (t : AbstractTask) :
    (abstractTask t).isAbstract = true := rfl

@[simp] theorem isAbstract_task (t : Task) : (task t).isAbstract = false := rfl

end WorkItem

namespace Run

open State

/-! ### Counting items -/

def abstractCount (items : Multiset WorkItem) : Nat := items.countP fun i => i.isAbstract = true

def taskCount (items : Multiset WorkItem) : Nat := items.countP fun i => i.isAbstract = false

section
variable (items items' : Multiset WorkItem)

@[simp] theorem abstractCount_zero : abstractCount 0 = 0 := rfl

@[simp] theorem taskCount_zero : taskCount 0 = 0 := rfl

@[simp] theorem abstractCount_cons_abstractTask (t : AbstractTask) :
    abstractCount (.abstractTask t ::ₘ items) = abstractCount items + 1 :=
  Multiset.countP_cons_of_pos _ rfl

@[simp] theorem abstractCount_cons_task (t : Task) :
    abstractCount (.task t ::ₘ items) = abstractCount items :=
  Multiset.countP_cons_of_neg _ (by simp)

@[simp] theorem taskCount_cons_abstractTask (t : AbstractTask) :
    taskCount (.abstractTask t ::ₘ items) = taskCount items :=
  Multiset.countP_cons_of_neg _ (by simp)

@[simp] theorem taskCount_cons_task (t : Task) :
    taskCount (.task t ::ₘ items) = taskCount items + 1 :=
  Multiset.countP_cons_of_pos _ rfl

@[simp] theorem abstractCount_add :
    abstractCount (items + items') = abstractCount items + abstractCount items' :=
  Multiset.countP_add ..

@[simp] theorem taskCount_add :
    taskCount (items + items') = taskCount items + taskCount items' :=
  Multiset.countP_add ..

end

theorem abstractCount_coe (l : List WorkItem) :
    abstractCount (l : Multiset WorkItem) = l.countP (·.isAbstract) := by
  simp [abstractCount]

theorem taskCount_coe (l : List WorkItem) :
    taskCount (l : Multiset WorkItem) = l.countP (!·.isAbstract) := by
  simp [taskCount]

theorem notMem_of_abstractCount_eq_zero {items : Multiset WorkItem} (h : abstractCount items = 0)
    (t : AbstractTask) : .abstractTask t ∉ items :=
  fun hmem => Multiset.countP_eq_zero.1 h _ hmem rfl

theorem count_firstAttempt (g : Governor) (tasks : List (TaskId × Path)) :
    abstractCount ↑(tasks.map (firstAttempt g)) = 0 ∧
      taskCount ↑(tasks.map (firstAttempt g)) = tasks.length := by
  rw [abstractCount_coe, taskCount_coe, List.countP_map, List.countP_map]
  constructor
  · exact List.countP_eq_zero.2 fun task _ => by simp [firstAttempt]
  · exact List.countP_eq_length.2 fun task _ => by simp [firstAttempt]

theorem count_abstractTask (tasks : List AbstractTask) :
    abstractCount ↑(tasks.map WorkItem.abstractTask) = tasks.length ∧
      taskCount ↑(tasks.map WorkItem.abstractTask) = 0 := by
  rw [abstractCount_coe, taskCount_coe, List.countP_map, List.countP_map]
  constructor
  · exact List.countP_eq_length.2 fun t _ => rfl
  · exact List.countP_eq_zero.2 fun t _ => by simp

/-! ### The numbers of a state -/

/-- The numbers of a run over so many abstract tasks, while these items live. -/
structure Reckoned (total : Nat) (items : Multiset WorkItem) (s : State) : Prop where
  pending : s.pendingAbstract = abstractCount items
  dealt : s.report.abstractTasks + abstractCount items = total
  expected : s.expectedTotal = s.report.outcomes.length + taskCount items
  /-- What is tried again is a task. -/
  retried : ∀ item ∈ s.retries, item.isAbstract = false

namespace Reckoned

variable {r : Run} {total : Nat} {items : Multiset WorkItem} {s s' : State}

theorem of_aside (h : Reckoned total s.live s) (aside : Aside s s') :
    Reckoned total s'.live s' := by
  rw [aside.live_eq]
  obtain ⟨_, _, _, rfl⟩ := aside
  exact ⟨h.pending, h.dealt, h.expected, h.retried⟩

theorem of_shift (h : Reckoned total items s) (shift : Shift s s') : Reckoned total items s' := by
  obtain ⟨_, _, _, _, _, _, hretries, rfl⟩ := shift
  exact ⟨h.pending, h.dealt, h.expected, fun item hitem => h.retried item (hretries hitem)⟩

section
variable {t : AbstractTask} (h : Reckoned total (.abstractTask t ::ₘ items) s)
include h

theorem withAbstract : Reckoned total items s.withAbstract := by
  obtain ⟨hpending, hdealt, hexpected, hretried⟩ := h
  simp only [abstractCount_cons_abstractTask, taskCount_cons_abstractTask] at hpending hdealt hexpected
  refine ⟨?_, ?_, hexpected, hretried⟩
  · simp [State.withAbstract, hpending]
  · simp only [State.withAbstract]
    omega

theorem withFailedClass (c : RequirementClass) :
    Reckoned total items (s.withFailedClass t.id c) := by
  obtain ⟨hpending, hdealt, hexpected, hretried⟩ := h.withAbstract
  have hlength := size_eq_length_identifiers c
  refine ⟨hpending, hdealt, ?_, hretried⟩
  simp only [State.withAbstract] at hexpected
  simp only [State.withFailedClass, List.length_append, List.length_map]
  omega

theorem withTasks (c : RequirementClass) (models : List EnvModel) :
    Reckoned total (items + ↑((constructed t.id c models).map (firstAttempt s.governor)))
      (s.withTasks t.id c models) := by
  obtain ⟨hpending, hdealt, hexpected, hretried⟩ := h.withAbstract
  obtain ⟨habstract, htasks⟩ := count_firstAttempt s.governor (constructed t.id c models)
  have hlength := length_constructed t.id c models
  refine ⟨?_, ?_, ?_, hretried⟩
  · rw [abstractCount_add, habstract]
    exact hpending
  · rw [abstractCount_add, habstract]
    exact hdealt
  · rw [taskCount_add, htasks]
    simp only [State.withAbstract] at hexpected
    simp only [State.withTasks]
    omega

end

theorem onAbstract {t : AbstractTask} (h : Reckoned total (.abstractTask t ::ₘ s.live) s)
    (models : Except String (List EnvModel)) :
    Reckoned total (r.onAbstract t models s).live (r.onAbstract t models s) := by
  cases hclass : Dict.find? r.classes t.id.classKey with
  | none =>
    rw [Run.onAbstract, hclass]
    exact h.withAbstract
  | some c =>
    by_cases hmodels : modelsOf models = []
    · have hfailed : Reckoned total (s.withFailedClass t.id c).live (s.withFailedClass t.id c) :=
        h.withFailedClass c
      exact hfailed.of_aside (onAbstract_aside_of_nil r t s hclass hmodels)
    · have hfanned : Reckoned total (s.withTasks t.id c (modelsOf models)).live
          (s.withTasks t.id c (modelsOf models)) := by
        rw [live_withTasks]
        exact h.withTasks c (modelsOf models)
      exact hfanned.of_aside (onAbstract_aside_of_ne_nil r t s hclass hmodels)

section
variable {t : Task} (h : Reckoned total (.task t ::ₘ items) s)
include h

theorem withOutcome (status : FinalStatus) (attempts : Nat) (governor : Governor) :
    Reckoned total items (State.withOutcome { s with governor } t status attempts) := by
  obtain ⟨hpending, hdealt, hexpected, hretried⟩ := h
  simp only [abstractCount_cons_task, taskCount_cons_task] at hpending hdealt hexpected
  refine ⟨hpending, ?_, ?_, hretried⟩
  · rw [← hdealt, State.withOutcome, Report.record]
    split <;> rfl
  · show s.expectedTotal = (s.report.record (outcomeOf t status attempts)).outcomes.length + _
    rw [Report.outcomes_record, List.length_append, List.length_singleton]
    omega

theorem queueRetry (t' : Task) (governor : Governor) :
    Reckoned total (.task t' ::ₘ items) (r.queueRetry (.task t') (s.withRetry governor)) := by
  obtain ⟨hpending, hdealt, hexpected, hretried⟩ := h
  simp only [abstractCount_cons_task, taskCount_cons_task] at hpending hdealt hexpected
  unfold Run.queueRetry
  split
  · refine ⟨by simpa, by simpa, by simpa, fun item hitem => ?_⟩
    rcases List.mem_append.1 hitem with hold | hnew
    · exact hretried item hold
    · rw [List.mem_singleton.1 hnew, WorkItem.isAbstract_task]
  · constructor <;> simpa [State.withRetry]

end

theorem finishTask {t : Task} (h : Reckoned total (.task t ::ₘ s.live) s) (status : FinalStatus)
    (attempts : Nat) (governor : Governor) :
    Reckoned total (r.finishTask t status attempts { s with governor }).live
      (r.finishTask t status attempts { s with governor }) := by
  have hended : Reckoned total (State.withOutcome { s with governor } t status attempts).live
      (State.withOutcome { s with governor } t status attempts) :=
    h.withOutcome status attempts governor
  exact hended.of_aside (finishTask_aside r t status attempts _)

theorem onTask {t : Task} (h : Reckoned total (.task t ::ₘ s.live) s) (solution : Solution) :
    Reckoned total (r.onTask t solution s).live (r.onTask t solution s) := by
  rcases onTask_eq_cases r t solution s with
    ⟨status, governor, _, heq⟩ | ⟨attempt, limits, governor, _, heq⟩
  · rw [heq]
    exact h.finishTask status _ governor
  · rw [heq, live_queueRetry]
    exact h.queueRetry _ governor

theorem deal {c : Completion} (h : Reckoned total (c.item ::ₘ s.live) s) :
    Reckoned total (r.deal c s).live (r.deal c s) := by
  cases c with
  | abstractTask t models => exact h.onAbstract models
  | task t solution => exact h.onTask solution

theorem dropItem {item : WorkItem} (h : Reckoned total (item ::ₘ s.live) s) :
    Reckoned total (r.dropItem item s).live (r.dropItem item s) := by
  cases item with
  | abstractTask t => exact h.onAbstract _
  | task t => exact h.finishTask .failed t.attempt s.governor

theorem of_move {completion : Option Completion} (h : Reckoned total s.live s)
    (move : Move r s completion s') : Reckoned total s'.live s' := by
  cases move with
  | deal shift live =>
    rw [live] at h
    exact (h.of_shift shift).deal
  | drop shift live =>
    rw [live] at h
    exact (h.of_shift shift).dropItem
  | finish now idle =>
    rw [finish_live]
    obtain ⟨_, _, _, _, heq⟩ := finish_eq now s
    rw [heq]
    exact ⟨h.pending, h.dealt, h.expected, h.retried⟩
  | shift shift live =>
    rw [live]
    exact h.of_shift shift

end Reckoned

/-! ### A whole run -/

theorem start_reckoned (r : Run) (fragments : FragmentSet) :
    Reckoned (r.abstractTasks fragments).length (r.start fragments).live (r.start fragments) := by
  obtain ⟨habstract, htasks⟩ := count_abstractTask (r.abstractTasks fragments)
  have haside := start_aside r fragments
  have hqueued : (r.queued fragments).live =
      ↑((r.abstractTasks fragments).map WorkItem.abstractTask) :=
    haside.live_eq.symm.trans (live_start r fragments)
  refine Reckoned.of_aside ?_ haside
  rw [hqueued]
  constructor
  · exact habstract.symm
  · show 0 + abstractCount _ = _
    omega
  · show 0 = 0 + taskCount _
    omega
  · intro item hitem
    cases hitem

theorem Trace.reckoned {r : Run} {fragments : FragmentSet} {workers : Nat} {es : List Event}
    {y : System} (wf : r.classes.WellFormed) (ordered : Dict.Ordered fragments)
    (run : Trace r fragments workers es y) (distinct : ∀ c ∈ handled es, c.DistinctModels) :
    Reckoned (r.abstractTasks fragments).length y.state.live y.state :=
  run.keeps_moves (P := fun s => Reckoned _ s.live s) wf ordered distinct
    (start_reckoned r fragments) fun move h => h.of_move move

end Run
end TaskGen
