import TaskGen.Proofs.Run.Places

/-!
What comes of an item if the workers' answers do not depend on when they are asked.  It is
said without any run, so it cannot depend on the order in which a run goes on.
-/

namespace TaskGen

/-- The parts of a report that do not depend on the order of its outcomes. -/
@[ext]
structure Tally where
  outcomes : Multiset TaskOutcome
  abstractTasks : Nat
  envModels : Nat
  tasksConstructed : Nat
  rescheduled : Nat

def Report.tally (rep : Report) : Tally :=
  ⟨rep.outcomes, rep.abstractTasks, rep.envModels, rep.tasksConstructed, rep.rescheduled⟩

namespace Tally

instance : Zero Tally := ⟨⟨0, 0, 0, 0, 0⟩⟩

instance : Add Tally where
  add a b := ⟨a.outcomes + b.outcomes, a.abstractTasks + b.abstractTasks,
    a.envModels + b.envModels, a.tasksConstructed + b.tasksConstructed,
    a.rescheduled + b.rescheduled⟩

theorem add_def (a b : Tally) : a + b = ⟨a.outcomes + b.outcomes,
    a.abstractTasks + b.abstractTasks, a.envModels + b.envModels,
    a.tasksConstructed + b.tasksConstructed, a.rescheduled + b.rescheduled⟩ := rfl

theorem zero_def : (0 : Tally) = ⟨0, 0, 0, 0, 0⟩ := rfl

instance : AddCommMonoid Tally where
  add_assoc a b c := by simp only [add_def, add_assoc]
  zero_add a := by simp only [add_def, zero_def, zero_add]
  add_zero a := by simp only [add_def, zero_def, add_zero]
  add_comm a b := by
    simp only [add_def, add_comm a.outcomes, Nat.add_comm a.abstractTasks,
      Nat.add_comm a.envModels, Nat.add_comm a.tasksConstructed, Nat.add_comm a.rescheduled]
  nsmul := nsmulRec

def ofOutcome (o : TaskOutcome) : Tally := ⟨{o}, 0, 0, 0, 0⟩

def again : Tally := ⟨0, 0, 0, 0, 1⟩

end Tally

/-- The answers of the workers, whoever is asked and whenever. -/
structure Oracle where
  models : AbstractTaskId → Except String (List EnvModel)
  solution : TaskId → Nat → Limits → Solution

def Oracle.Gives (o : Oracle) : Completion → Prop
  | .abstractTask t models => models = o.models t.id
  | .task t solution => solution = o.solution t.id t.attempt t.limits

def Oracle.DistinctModels (o : Oracle) : Prop :=
  ∀ id, ((Run.modelsOf (o.models id)).map (·.id)).Nodup

theorem Oracle.DistinctModels.completion {o : Oracle} (h : o.DistinctModels) {c : Completion}
    (gives : o.Gives c) : c.DistinctModels := by
  cases c with
  | abstractTask t models =>
    have hgives : models = o.models t.id := gives
    subst hgives
    exact h t.id
  | task t solution => exact trivial

namespace Run

/-- What comes of a task from one of its attempts on. -/
def taskFate (p : Escalation) (id : TaskId) (solution : Nat → Limits → Solution) (attempt : Nat)
    (limits : Limits) : Tally :=
  let status := (solution attempt limits).status
  match h : p.further? attempt limits status with
  | some next => .again + taskFate p id solution (attempt + 1) next
  | none => .ofOutcome
      ⟨id.fragment, id.classKey, some id.model, id.requirement, status.verdict, attempt + 1⟩
termination_by p.maxAttempts - attempt
decreasing_by
  have hlt := Escalation.lt_of_further? h
  omega

def abstractFate (p : Escalation) (o : Oracle) (c : RequirementClass) (id : AbstractTaskId)
    (models : List EnvModel) : Tally :=
  if models.isEmpty then ⟨c.identifiers.map (outcomeWithoutModel id), 1, 0, 0, 0⟩
  else
    ⟨0, 1, models.length, models.length * c.size, 0⟩ +
      ((constructed id c models).map fun task =>
        taskFate p task.1 (o.solution task.1) 0 p.defaults).sum

def fate (r : Run) (o : Oracle) : WorkItem → Tally
  | .abstractTask t =>
    match Dict.find? r.classes t.id.classKey with
    | none => ⟨0, 1, 0, 0, 0⟩
    | some c => abstractFate r.config.escalation o c t.id (modelsOf (o.models t.id))
  | .task t => taskFate r.config.escalation t.id (o.solution t.id) t.attempt t.limits

def fates (r : Run) (o : Oracle) (items : Multiset WorkItem) : Tally := (items.map (r.fate o)).sum

variable {r : Run} {o : Oracle}

@[simp] theorem fates_add (items items' : Multiset WorkItem) :
    r.fates o (items + items') = r.fates o items + r.fates o items' := by
  rw [fates, Multiset.map_add, Multiset.sum_add, fates, fates]

@[simp] theorem fates_cons (item : WorkItem) (items : Multiset WorkItem) :
    r.fates o (item ::ₘ items) = r.fate o item + r.fates o items := by
  rw [fates, Multiset.map_cons, Multiset.sum_cons, fates]

@[simp] theorem fates_zero : r.fates o 0 = 0 := rfl

theorem taskFate_of_none {p : Escalation} {id : TaskId} {solution : Nat → Limits → Solution}
    {attempt : Nat} {limits : Limits}
    (h : p.further? attempt limits (solution attempt limits).status = none) :
    taskFate p id solution attempt limits = .ofOutcome ⟨id.fragment, id.classKey, some id.model,
      id.requirement, (solution attempt limits).status.verdict, attempt + 1⟩ := by
  rw [taskFate]
  split
  · next next hnext =>
    rw [h] at hnext
    cases hnext
  · rfl

theorem taskFate_of_some {p : Escalation} {id : TaskId} {solution : Nat → Limits → Solution}
    {attempt : Nat} {limits next : Limits}
    (h : p.further? attempt limits (solution attempt limits).status = some next) :
    taskFate p id solution attempt limits = .again + taskFate p id solution (attempt + 1) next := by
  rw [taskFate]
  split
  · next next' hnext =>
    rw [h] at hnext
    cases hnext
    rfl
  · next hnone =>
    rw [h] at hnone
    cases hnone

/-- A task has one outcome in the end. -/
theorem exists_taskFate_eq (p : Escalation) (id : TaskId) (solution : Nat → Limits → Solution)
    (attempt : Nat) (limits : Limits) :
    ∃ status attempts again, taskFate p id solution attempt limits =
      ⟨{⟨id.fragment, id.classKey, some id.model, id.requirement, status, attempts⟩},
        0, 0, 0, again⟩ := by
  induction attempt, limits using taskFate.induct p solution with
  | case1 attempt limits status next h ih =>
    obtain ⟨status, attempts, again, heq⟩ := ih
    exact ⟨status, attempts, _, by rw [taskFate_of_some h, heq]; rfl⟩
  | case2 attempt limits status h => exact ⟨_, _, _, taskFate_of_none h⟩

/-! ### Answers to one task -/

/-- The tallies agree in everything but in how a task ended. -/
structure Alike (id : TaskId) (a b : Tally) : Prop where
  others : a.outcomes.filter (fun o => o.place ≠ id.place) =
    b.outcomes.filter fun o => o.place ≠ id.place
  places : a.outcomes.map TaskOutcome.place = b.outcomes.map TaskOutcome.place
  abstractTasks : a.abstractTasks = b.abstractTasks
  envModels : a.envModels = b.envModels
  tasksConstructed : a.tasksConstructed = b.tasksConstructed

namespace Alike

variable {id : TaskId}

theorem refl (a : Tally) : Alike id a a := ⟨rfl, rfl, rfl, rfl, rfl⟩

theorem add {a b a' b' : Tally} (h : Alike id a b) (h' : Alike id a' b') :
    Alike id (a + a') (b + b') where
  others := by
    rw [Tally.add_def, Tally.add_def, Multiset.filter_add, Multiset.filter_add, h.others, h'.others]
  places := by
    rw [Tally.add_def, Tally.add_def, Multiset.map_add, Multiset.map_add, h.places, h'.places]
  abstractTasks := congrArg₂ (· + ·) h.abstractTasks h'.abstractTasks
  envModels := congrArg₂ (· + ·) h.envModels h'.envModels
  tasksConstructed := congrArg₂ (· + ·) h.tasksConstructed h'.tasksConstructed

theorem sum {α : Type} {f g : α → Tally} (as : List α) (h : ∀ a ∈ as, Alike id (f a) (g a)) :
    Alike id (as.map f).sum (as.map g).sum := by
  induction as with
  | nil => exact refl 0
  | cons a as ih =>
    rw [List.map_cons, List.map_cons, List.sum_cons, List.sum_cons]
    exact (h a List.mem_cons_self).add (ih fun b hb => h b (List.mem_cons_of_mem _ hb))

end Alike

variable {id : TaskId} {o o' : Oracle}

theorem taskFate_alike (p : Escalation) (others : ∀ i, i ≠ id → o.solution i = o'.solution i)
    (i : TaskId) (attempt : Nat) (limits : Limits) :
    Alike id (taskFate p i (o.solution i) attempt limits)
      (taskFate p i (o'.solution i) attempt limits) := by
  by_cases hi : i = id
  · -- However the task ends, it ends once and in its own place.
    subst hi
    obtain ⟨status, attempts, again, heq⟩ :=
      exists_taskFate_eq p i (o.solution i) attempt limits
    obtain ⟨status', attempts', again', heq'⟩ :=
      exists_taskFate_eq p i (o'.solution i) attempt limits
    rw [heq, heq']
    refine ⟨?_, rfl, rfl, rfl, rfl⟩
    have hown : ∀ status attempts, TaskOutcome.place
        ⟨i.fragment, i.classKey, some i.model, i.requirement, status, attempts⟩ = i.place :=
      fun _ _ => rfl
    rw [Multiset.filter_singleton, Multiset.filter_singleton, hown, hown]
    simp
  · rw [others i hi]
    exact .refl _

theorem fate_alike (r : Run) (models : o.models = o'.models)
    (others : ∀ i, i ≠ id → o.solution i = o'.solution i) (item : WorkItem) :
    Alike id (r.fate o item) (r.fate o' item) := by
  cases item with
  | abstractTask t =>
    rw [fate, fate, models]
    cases Dict.find? r.classes t.id.classKey with
    | none => exact .refl _
    | some c =>
      dsimp only
      unfold abstractFate
      split
      · exact .refl _
      · exact (Alike.refl _).add (.sum _ fun task _ => taskFate_alike _ others task.1 0 _)
  | task t => exact taskFate_alike _ others t.id t.attempt t.limits

end Run
end TaskGen
