import TaskGen.Proofs.Run.Reckoning
import TaskGen.Proofs.Run.Records

/-!
The loop never waits for nothing, and there is an end to what it waits for.  Each abstract task
comes to one completion, each task to no more than it has attempts.

Main statement: `progress_of_trace`.
-/

namespace TaskGen

/-- How many completions an item may still come to, with so many attempts at a task. -/
def WorkItem.budget (most : Nat) : WorkItem → Nat
  | .abstractTask _ => 1
  | .task t => most - t.attempt

namespace Run

open State

/-! ### The budgets of items -/

def budgets (most : Nat) (items : Multiset WorkItem) : Nat :=
  (items.map (WorkItem.budget most)).sum

section
variable (most : Nat) (items items' : Multiset WorkItem)

@[simp] theorem budgets_cons (item : WorkItem) :
    budgets most (item ::ₘ items) = item.budget most + budgets most items := by
  simp [budgets]

@[simp] theorem budgets_add :
    budgets most (items + items') = budgets most items + budgets most items' := by
  simp [budgets]

theorem budgets_abstractTask (tasks : List AbstractTask) :
    budgets most ↑(tasks.map WorkItem.abstractTask) = tasks.length := by
  induction tasks with
  | nil => rfl
  | cons t tasks ih =>
    rw [List.map_cons, ← Multiset.cons_coe, budgets_cons, ih, List.length_cons]
    show 1 + tasks.length = _
    omega

theorem budgets_firstAttempt (g : Governor) (tasks : List (TaskId × Path)) :
    budgets most ↑(tasks.map (firstAttempt g)) = tasks.length * most := by
  induction tasks with
  | nil => simp [budgets]
  | cons task tasks ih =>
    rw [List.map_cons, ← Multiset.cons_coe, budgets_cons, ih, List.length_cons, Nat.succ_mul]
    show most + _ = _
    omega

end

/-! ### The completions so far -/

/-- The completions so far and those that the items may still come to are no more than what the
tasks that were made allow. -/
structure Bounded (most total count : Nat) (items : Multiset WorkItem) (s : State) : Prop where
  attempts : ∀ t, .task t ∈ items → t.attempt < most
  bound : count + budgets most items ≤ total + s.report.tasksConstructed * most

namespace Bounded

variable {r : Run} {p : Escalation} {most total count : Nat} {items : Multiset WorkItem}
  {s s' : State}

theorem of_aside (h : Bounded most total count s.live s) (aside : Aside s s') :
    Bounded most total count s'.live s' := by
  rw [aside.live_eq]
  obtain ⟨_, _, _, rfl⟩ := aside
  exact ⟨h.attempts, h.bound⟩

theorem of_shift (h : Bounded most total count items s) (shift : Shift s s') :
    Bounded most total count items s' := by
  obtain ⟨_, _, _, _, _, _, _, rfl⟩ := shift
  exact ⟨h.attempts, h.bound⟩

theorem budget_pos {item : WorkItem} (h : Bounded most total count (item ::ₘ items) s) :
    0 < item.budget most := by
  cases item with
  | abstractTask t => exact Nat.one_pos
  | task t =>
    have hlt := h.attempts t (Multiset.mem_cons_self _ _)
    show 0 < most - t.attempt
    omega

theorem ended {item : WorkItem} (h : Bounded most total count (item ::ₘ items) s)
    (same : s'.report.tasksConstructed = s.report.tasksConstructed) :
    Bounded most total (count + 1) items s' := by
  have hpos := h.budget_pos
  obtain ⟨hattempts, hbound⟩ := h
  rw [budgets_cons] at hbound
  refine ⟨fun t ht => hattempts t (Multiset.mem_cons_of_mem ht), ?_⟩
  rw [same]
  omega

theorem fanned {t : AbstractTask} (h : Bounded most total count (.abstractTask t ::ₘ items) s)
    (positive : 0 < most) (g : Governor) (tasks : List (TaskId × Path))
    (made : s'.report.tasksConstructed = s.report.tasksConstructed + tasks.length) :
    Bounded most total (count + 1) (items + ↑(tasks.map (firstAttempt g))) s' := by
  obtain ⟨hattempts, hbound⟩ := h
  rw [budgets_cons] at hbound
  refine ⟨fun t' ht' => ?_, ?_⟩
  · rcases Multiset.mem_add.1 ht' with hold | hnew
    · exact hattempts t' (Multiset.mem_cons_of_mem hold)
    · obtain ⟨task, _, heq⟩ := List.mem_map.1 (Multiset.mem_coe.1 hnew)
      cases heq
      exact positive
  · rw [budgets_add, budgets_firstAttempt, made, Nat.add_mul]
    have hone : (WorkItem.abstractTask t).budget most = 1 := rfl
    omega

theorem retried {t : Task} (h : Bounded most total count (.task t ::ₘ items) s)
    (further : t.attempt + 1 < most) (limits : Limits)
    (same : s'.report.tasksConstructed = s.report.tasksConstructed) :
    Bounded most total (count + 1)
      (.task { t with attempt := t.attempt + 1, limits } ::ₘ items) s' := by
  obtain ⟨hattempts, hbound⟩ := h
  rw [budgets_cons] at hbound
  refine ⟨fun t' ht' => ?_, ?_⟩
  · rcases Multiset.mem_cons.1 ht' with hnew | hold
    · cases hnew
      exact further
    · exact hattempts t' (Multiset.mem_cons_of_mem hold)
  · rw [budgets_cons, same]
    have hleft : (WorkItem.task t).budget most = most - t.attempt := rfl
    have hnext : (WorkItem.task { t with attempt := t.attempt + 1, limits }).budget most =
        most - (t.attempt + 1) := rfl
    omega

theorem onAbstract {t : AbstractTask}
    (h : Bounded most total count (.abstractTask t ::ₘ s.live) s) (positive : 0 < most)
    (models : Except String (List EnvModel)) :
    Bounded most total (count + 1) (r.onAbstract t models s).live (r.onAbstract t models s) := by
  cases hclass : Dict.find? r.classes t.id.classKey with
  | none =>
    rw [Run.onAbstract, hclass]
    exact h.ended rfl
  | some c =>
    by_cases hmodels : modelsOf models = []
    · have hfailed : Bounded most total (count + 1) (s.withFailedClass t.id c).live
          (s.withFailedClass t.id c) := h.ended rfl
      exact hfailed.of_aside (onAbstract_aside_of_nil r t s hclass hmodels)
    · have hfanned : Bounded most total (count + 1) (s.withTasks t.id c (modelsOf models)).live
          (s.withTasks t.id c (modelsOf models)) := by
        rw [live_withTasks]
        refine h.fanned positive s.governor _ ?_
        rw [length_constructed]
        rfl
      exact hfanned.of_aside (onAbstract_aside_of_ne_nil r t s hclass hmodels)

theorem finishTask {t : Task} (h : Bounded most total count (.task t ::ₘ s.live) s)
    (status : FinalStatus) (attempts : Nat) (governor : Governor) :
    Bounded most total (count + 1) (r.finishTask t status attempts { s with governor }).live
      (r.finishTask t status attempts { s with governor }) := by
  have hended : Bounded most total (count + 1)
      (State.withOutcome { s with governor } t status attempts).live
      (State.withOutcome { s with governor } t status attempts) := by
    refine h.ended ?_
    show (s.report.record (outcomeOf t status attempts)).tasksConstructed = _
    unfold Report.record
    split <;> rfl
  exact hended.of_aside (finishTask_aside r t status attempts _)

theorem onTask {t : Task} (h : Bounded most total count (.task t ::ₘ s.live) s)
    (governed : Governed p (.task t ::ₘ s.live) s.governor) (allowed : p.maxAttempts ≤ most)
    (solution : Solution) :
    Bounded most total (count + 1) (r.onTask t solution s).live (r.onTask t solution s) := by
  obtain ⟨history, hknown⟩ := governed.known t (Multiset.mem_cons_self _ _)
  rcases onTask_of_known r solution hknown with
    ⟨status, governor, _, heq⟩ | ⟨next, governor, _, hmore, _, _, heq⟩
  · rw [heq]
    exact h.finishTask status _ governor
  · rw [governed.policy] at hmore
    have hlt := Escalation.lt_of_further? hmore
    rw [heq, live_queueRetry]
    refine h.retried (by omega) next ?_
    rw [report_queueRetry]
    rfl

theorem dropItem {item : WorkItem} (h : Bounded most total count (item ::ₘ s.live) s)
    (positive : 0 < most) :
    Bounded most total (count + 1) (r.dropItem item s).live (r.dropItem item s) := by
  cases item with
  | abstractTask t => exact h.onAbstract positive _
  | task t => exact h.finishTask .failed t.attempt s.governor

theorem of_move {completion : Option Completion} (h : Bounded most total count s.live s)
    (governed : Governed p s.live s.governor) (positive : 0 < most)
    (allowed : p.maxAttempts ≤ most) (move : Move r s completion s') :
    Bounded most total (count + completion.toList.length) s'.live s' := by
  cases move with
  | @deal c rest shift live =>
    have hgovernor : rest.governor = s.governor := by
      obtain ⟨_, _, _, _, _, _, _, rfl⟩ := shift
      rfl
    rw [live] at h governed
    rw [← hgovernor] at governed
    cases c with
    | abstractTask t models => exact (h.of_shift shift).onAbstract positive models
    | task t solution => exact (h.of_shift shift).onTask governed allowed solution
  | drop shift live =>
    rw [live] at h
    have hdropped := (h.of_shift shift).dropItem (r := r) positive
    refine ⟨hdropped.attempts, ?_⟩
    have hbound := hdropped.bound
    simp only [Option.toList_none, List.length_nil]
    omega
  | finish now idle =>
    rw [finish_live]
    obtain ⟨_, _, _, _, heq⟩ := finish_eq now s
    rw [heq]
    exact ⟨h.attempts, h.bound⟩
  | shift shift live =>
    rw [live]
    exact h.of_shift shift

end Bounded

theorem start_bounded (r : Run) (fragments : FragmentSet) (most : Nat) :
    Bounded most (r.abstractTasks fragments).length 0 (r.start fragments).live
      (r.start fragments) := by
  rw [live_start]
  refine ⟨fun t ht => ?_, ?_⟩
  · obtain ⟨t', _, heq⟩ := List.mem_map.1 (Multiset.mem_coe.1 ht)
    cases heq
  · rw [budgets_abstractTask]
    omega

/-! ### A whole run -/

section
variable {r : Run} {fragments : FragmentSet} {workers : Nat} {es : List Event} {y : System}
  (run : Trace r fragments workers es y) (wf : r.classes.WellFormed)
  (ordered : Dict.Ordered fragments)
include run wf ordered

theorem Trace.bounded (distinct : ∀ c ∈ handled es, c.DistinctModels) :
    Bounded (max 1 r.config.escalation.maxAttempts) (r.abstractTasks fragments).length
      (handled es).length y.state.live y.state := by
  refine run.keeps (P := fun es y => Bounded _ _ (handled es).length y.state.live y.state)
    distinct (start_bounded r fragments _) fun run before _ next bounded => ?_
  rw [handled_append, List.length_append]
  refine bounded.of_move (run.governed wf ordered before) ?_ ?_
    (next.move (run.sound wf ordered before))
  · omega
  · omega

theorem Trace.pendingAbstract_eq (distinct : ∀ c ∈ handled es, c.DistinctModels) :
    y.state.pendingAbstract = y.state.backlog.countP (·.isAbstract) +
      (y.state.inFlight.map (·.2.item)).countP (·.isAbstract) := by
  have hreckoned := run.reckoned wf ordered distinct
  have hretries : y.state.retries.countP (·.isAbstract) = 0 := by
    rw [List.countP_eq_zero]
    intro item hitem
    rw [hreckoned.retried item hitem]
    exact Bool.false_ne_true
  rw [hreckoned.pending, live, unadmitted, underWay, abstractCount_add, abstractCount_add,
    abstractCount_coe, abstractCount_coe, abstractCount_coe, hretries]
  rfl

end

structure Progress (r : Run) (fragments : FragmentSet) (es : List Event) (y : System) : Prop where
  pending : y.state.pendingAbstract = y.state.backlog.countP (·.isAbstract) +
    (y.state.inFlight.map (·.2.item)).countP (·.isAbstract)
  /-- After admission all is done or something is under way, and whatever is under way is on its
  way to a worker, with a worker or on its way back. -/
  waits : 0 < r.limit → y.phase = .running → y.channel.closed = false → ∀ now,
    let a := r.admitWaiting now y.state y.channel
    (a.state.isDone = true ∨ a.state.inFlight ≠ []) ∧
      ({ y with state := a.state, channel := a.channel } : System).outside = a.state.underWay
  bounded : (handled es).length ≤ (r.abstractTasks fragments).length +
    y.state.report.tasksConstructed * max 1 r.config.escalation.maxAttempts

/-- The loop is not stuck in any state of a run, and it deals with no more completions than there
are abstract tasks and attempts at the tasks that were made. -/
theorem progress_of_trace {r : Run} {digest : List ConfiguredStage → String}
    {rs : List Requirement} (classes : r.classes = RequirementClasses.classifyWith digest rs)
    (distinct : (rs.map (·.identifier)).Nodup) {fragments : FragmentSet}
    (ordered : Dict.Ordered fragments) {workers : Nat} {es : List Event} {y : System}
    (run : Trace r fragments workers es y) (answers : Answers Completion.DistinctModels es) :
    Progress r fragments es y := by
  have hwf := RequirementClasses.WellFormed.of_eq classes distinct
  have hdistinct := run.distinct_handled answers
  refine ⟨run.pendingAbstract_eq hwf ordered hdistinct, ?_, ?_⟩
  · intro hlimit hrunning hopen now a
    obtain ⟨_, hopened, hfull, entered, hsilent, _, hrun⟩ :=
      run.admitting hwf ordered now y.state.waiting hdistinct hrunning hopen
    have hhandled : handled (es ++ entered) = handled es := by
      rw [handled, List.filterMap_append, ← handled, ← handled, hsilent, List.append_nil]
    rw [← hhandled] at hdistinct
    refine ⟨?_, (hrun.sound hwf ordered hdistinct).whole hopened⟩
    by_cases hnone : a.state.inFlight = []
    · -- There is room, so nothing waits, and no abstract task is pending without an item.
      have hroom : a.state.inFlight.length < r.limit := by
        rw [hnone]
        exact hlimit
      have hwaiting := hfull (le_refl _) hroom
      have hpending := (hrun.reckoned hwf ordered hdistinct).pending
      dsimp only at hpending
      rw [live_eq_zero hwaiting hnone, abstractCount_zero] at hpending
      exact .inl ((isDone_iff a.state).2 ⟨hwaiting, hnone, hpending⟩)
    · exact .inr hnone
  · have hbound := (run.bounded hwf ordered hdistinct).bound
    omega

/-- The task of the second model waits while that of the first one is under way. -/
theorem progress_of_sample :
    ∃ es y, Trace (sample 1 true) [("f", ⟨"f.json"⟩)] 1 es y ∧ y.phase = .running ∧
      y.channel.closed = false ∧ y.state.waiting = 1 ∧ y.state.inFlight.length = 1 ∧
      Progress (sample 1 true) [("f", ⟨"f.json"⟩)] es y := by
  let t : AbstractTask := ⟨⟨"f", "alloc"⟩, ⟨"f.json"⟩⟩
  let m : EnvModel := ⟨"m", ⟨"m"⟩, ⟨"m.json"⟩⟩
  let n : EnvModel := ⟨"n", ⟨"n"⟩, ⟨"n.json"⟩⟩
  let t' : Task := ⟨⟨"f", "alloc", "m", "alloc"⟩, 0, .standard, m.artifact⟩
  have modelled := @Trace.turn (sample 1 true) [("f", ⟨"f.json"⟩)] 1 _ []
    (.abstractTask t (.ok [m, n])) _ _ .start rfl (by decide) ⟨1⟩
  have entered := modelled.step (@Step.enter _ _ (.task t') _ ⟨2⟩ rfl (by decide) rfl)
  refine ⟨_, _, entered, rfl, rfl, rfl, rfl, ?_⟩
  refine @progress_of_trace _ fingerprint _ rfl (by decide) _ ?_ _ _ _ entered ?_
  · exact List.pairwise_singleton _ _
  · intro c hc
    simp at hc
    subst hc
    have hnames : ["m", "n"].Nodup := by decide
    exact hnames

end Run
end TaskGen
