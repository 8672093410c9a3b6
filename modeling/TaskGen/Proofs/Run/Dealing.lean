import Mathlib.Algebra.BigOperators.Group.Multiset.Basic
import Mathlib.Data.Multiset.Bind
import Mathlib.Tactic.Abel
import TaskGen.Proofs.Governor
import TaskGen.Run.Control

/-!
What the loop does with a completion, said once for each of the four ways in which an item can
leave it: a class fails, an abstract task fans out, a task ends, a task is tried again.  What
is told to others, what is released and how many tasks are open is left aside here.
-/

namespace TaskGen
namespace Run

namespace State

def unadmitted (s : State) : Multiset WorkItem := (s.backlog : Multiset WorkItem) + s.retries

def underWay (s : State) : Multiset WorkItem := ↑(s.inFlight.map fun p => p.2.item)

def live (s : State) : Multiset WorkItem := s.unadmitted + s.underWay

def keys (s : State) : Multiset ItemKey := s.live.map WorkItem.key

/-- The second state is the first one, but for what has been told and released and for the
numbers of open tasks. -/
def Aside (s s' : State) : Prop :=
  ∃ total openTasks effects,
    s' = { s with report := { s.report with total := total }, openTasks, effects }

namespace Aside

theorem refl (s : State) : Aside s s := ⟨_, _, _, rfl⟩

theorem trans {a b c : State} (hab : Aside a b) (hbc : Aside b c) : Aside a c := by
  obtain ⟨_, _, _, rfl⟩ := hab
  obtain ⟨_, _, _, rfl⟩ := hbc
  exact ⟨_, _, _, rfl⟩

section
variable {s s' : State} (h : Aside s s')
include h

theorem live_eq : s'.live = s.live := by obtain ⟨_, _, _, rfl⟩ := h; rfl

theorem unadmitted_eq : s'.unadmitted = s.unadmitted := by obtain ⟨_, _, _, rfl⟩ := h; rfl

theorem inFlight_eq : s'.inFlight = s.inFlight := by obtain ⟨_, _, _, rfl⟩ := h; rfl

theorem governor_eq : s'.governor = s.governor := by obtain ⟨_, _, _, rfl⟩ := h; rfl

theorem cancelling_eq : s'.cancelling = s.cancelling := by obtain ⟨_, _, _, rfl⟩ := h; rfl

/-- The reports agree in all but the total. -/
theorem report_eq : ∃ total, s'.report = { s.report with total := total } := by
  obtain ⟨total, _, _, rfl⟩ := h
  exact ⟨total, rfl⟩

end

end Aside
end State

open State

/-! ### Telling and releasing -/

theorem announce_aside (total : Nat) (s : State) : Aside s (announce total s) := by
  unfold announce
  split
  · exact .refl s
  · exact ⟨_, _, _, rfl⟩

theorem release_aside (r : Run) (dir : Path) (s : State) : Aside s (r.release dir s) := by
  unfold release
  split
  · exact .refl s
  · exact ⟨_, _, _, rfl⟩

theorem afterAbstract_aside (s : State) : Aside s (afterAbstract s) := by
  unfold afterAbstract
  split
  · exact announce_aside _ s
  · exact .refl s

theorem closeTask_aside (r : Run) (id : AbstractTaskId) (s : State) :
    Aside s (r.closeTask id s) := by
  unfold closeTask
  split
  · exact .refl s
  · dsimp only
    split
    · exact Aside.trans ⟨_, _, _, rfl⟩ (release_aside r _ _)
    · exact ⟨_, _, _, rfl⟩

/-! ### Abstract tasks -/

/-- No model was found, so every member of the class has failed. -/
def State.withFailedClass (s : State) (id : AbstractTaskId) (c : RequirementClass) : State :=
  { s with
    pendingAbstract := s.pendingAbstract - 1
    expectedTotal := s.expectedTotal + c.size
    report := { s.report with
      abstractTasks := s.report.abstractTasks + 1
      failed := s.report.failed + c.size
      outcomes := s.report.outcomes ++ c.identifiers.map (outcomeWithoutModel id) } }

def firstAttempt (g : Governor) (task : TaskId × Path) : WorkItem :=
  .task ⟨task.1, 0, (g.recordOf task.1).limits, task.2⟩

def openRecords (ids : List TaskId) (g : Governor) : Governor :=
  ids.foldl (fun g id => (g.limitsFor id).2) g

/-- Every model is there to be checked for every member of the class. -/
def State.withTasks (s : State) (id : AbstractTaskId) (c : RequirementClass)
    (models : List EnvModel) : State :=
  let tasks := constructed id c models
  { s with
    pendingAbstract := s.pendingAbstract - 1
    expectedTotal := s.expectedTotal + models.length * c.size
    governor := openRecords (tasks.map Prod.fst) s.governor
    backlog := s.backlog ++ tasks.map (firstAttempt s.governor)
    report := { s.report with
      abstractTasks := s.report.abstractTasks + 1
      envModels := s.report.envModels + models.length
      tasksConstructed := s.report.tasksConstructed + models.length * c.size } }

theorem foldl_record_aside (id : AbstractTaskId) (qs : List String) (s : State) :
    Aside
      { s with report := { s.report with
          failed := s.report.failed + qs.length
          outcomes := s.report.outcomes ++ qs.map (outcomeWithoutModel id) } }
      (qs.foldl (fun s q => record (outcomeWithoutModel id q) s) s) := by
  induction qs generalizing s with
  | nil => exact ⟨_, _, _, by simp; rfl⟩
  | cons q qs ih =>
    obtain ⟨total, openTasks, effects, h⟩ := ih (record (outcomeWithoutModel id q) s)
    refine ⟨total, openTasks, effects, ?_⟩
    rw [List.foldl_cons, h]
    simp [record, emit, Report.record, outcomeWithoutModel, Nat.add_comm, Nat.add_left_comm]

theorem size_eq_length_identifiers (c : RequirementClass) : c.identifiers.length = c.size := by
  simp [RequirementClass.identifiers, RequirementClass.members, RequirementClass.size]

theorem policy_openRecords (ids : List TaskId) (g : Governor) :
    (openRecords ids g).policy = g.policy := by
  induction ids generalizing g with
  | nil => rfl
  | cons i ids ih => exact (ih (g.limitsFor i).2).trans (g.policy_limitsFor i)

theorem record?_openRecords_of_notMem {ids : List TaskId} {id : TaskId} (h : id ∉ ids)
    (g : Governor) : (openRecords ids g).record? id = g.record? id := by
  induction ids generalizing g with
  | nil => rfl
  | cons i ids ih =>
    have hne : id ≠ i := by
      intro heq
      exact h (heq ▸ List.mem_cons_self)
    have hids : id ∉ ids := fun hmem => h (List.mem_cons_of_mem _ hmem)
    have hrest := ih hids (g.limitsFor i).2
    exact hrest.trans (g.record?_limitsFor_of_ne i hne)

theorem record?_openRecords_of_mem {ids : List TaskId} {id : TaskId} (h : id ∈ ids)
    (g : Governor) : (openRecords ids g).record? id = some (g.recordOf id) := by
  induction ids generalizing g with
  | nil => cases h
  | cons i ids ih =>
    by_cases hids : id ∈ ids
    · have hrest := ih hids (g.limitsFor i).2
      rw [g.recordOf_limitsFor i id] at hrest
      exact hrest
    · have hid : id = i := (List.mem_cons.1 h).resolve_right hids
      subst hid
      have hrest := record?_openRecords_of_notMem hids (g.limitsFor id).2
      exact hrest.trans (g.record?_limitsFor_self id)

theorem foldl_queueTask (tasks : List (TaskId × Path)) (s : State) :
    tasks.foldl queueTask s =
      { s with
        governor := openRecords (tasks.map Prod.fst) s.governor
        backlog := s.backlog ++ tasks.map (firstAttempt s.governor) } := by
  induction tasks generalizing s with
  | nil => simp [openRecords]
  | cons task tasks ih =>
    -- The limits of the tasks behind this one are those of the governor before it.
    have hrest : tasks.map (firstAttempt (s.governor.limitsFor task.1).2) =
        tasks.map (firstAttempt s.governor) := by
      apply List.map_congr_left
      intro other _
      rw [firstAttempt, firstAttempt, s.governor.recordOf_limitsFor]
    rw [List.foldl_cons, ih]
    simp only [queueTask, hrest]
    simp [openRecords, firstAttempt, Governor.limitsFor]

theorem failClass_aside (r : Run) (id : AbstractTaskId) (c : RequirementClass) (s : State) :
    Aside
      { s with
        expectedTotal := s.expectedTotal + c.size
        report := { s.report with
          failed := s.report.failed + c.size
          outcomes := s.report.outcomes ++ c.identifiers.map (outcomeWithoutModel id) } }
      (r.failClass id c s) := by
  have hrecord := foldl_record_aside id c.identifiers
    { s with expectedTotal := s.expectedTotal + c.size }
  rw [size_eq_length_identifiers] at hrecord
  exact (hrecord.trans (release_aside r _ _)).trans (afterAbstract_aside _)

theorem fanOut_aside (id : AbstractTaskId) (c : RequirementClass) (models : List EnvModel)
    (s : State) :
    let tasks := constructed id c models
    Aside
      { s with
        expectedTotal := s.expectedTotal + models.length * c.size
        governor := openRecords (tasks.map Prod.fst) s.governor
        backlog := s.backlog ++ tasks.map (firstAttempt s.governor)
        report := { s.report with
          envModels := s.report.envModels + models.length
          tasksConstructed := s.report.tasksConstructed + models.length * c.size } }
      (fanOut id c models s) := by
  intro tasks
  refine Aside.trans ?_ (afterAbstract_aside _)
  rw [foldl_queueTask]
  exact ⟨_, _, _, rfl⟩

/-- The models of an answer.  An error stands for none. -/
def modelsOf : Except String (List EnvModel) → List EnvModel
  | .ok models => models
  | .error _ => []

def State.withAbstract (s : State) : State :=
  { s with
    pendingAbstract := s.pendingAbstract - 1
    report := { s.report with abstractTasks := s.report.abstractTasks + 1 } }

section
variable (r : Run) (t : AbstractTask) {c : RequirementClass}
  {models : Except String (List EnvModel)} (s : State)
  (hc : Dict.find? r.classes t.id.classKey = some c)
include hc

theorem onAbstract_of_nil (hnil : modelsOf models = []) :
    r.onAbstract t models s = r.failClass t.id c s.withAbstract := by
  unfold onAbstract
  rw [hc]
  cases models with
  | error reason => rfl
  | ok ms =>
    have hms : ms = [] := hnil
    rw [hms]
    rfl

theorem onAbstract_of_ne_nil (hne : modelsOf models ≠ []) :
    r.onAbstract t models s = fanOut t.id c (modelsOf models) s.withAbstract := by
  unfold onAbstract
  rw [hc]
  cases models with
  | error reason => exact absurd rfl hne
  | ok ms =>
    cases ms with
    | nil => exact absurd rfl hne
    | cons m ms => rfl

theorem onAbstract_aside_of_nil (hnil : modelsOf models = []) :
    Aside (s.withFailedClass t.id c) (r.onAbstract t models s) := by
  rw [onAbstract_of_nil r t s hc hnil]
  exact failClass_aside r t.id c s.withAbstract

theorem onAbstract_aside_of_ne_nil (hne : modelsOf models ≠ []) :
    Aside (s.withTasks t.id c (modelsOf models)) (r.onAbstract t models s) := by
  rw [onAbstract_of_ne_nil r t s hc hne]
  exact fanOut_aside t.id c (modelsOf models) s.withAbstract

end

/-! ### Tasks -/

def State.withOutcome (s : State) (t : Task) (status : FinalStatus) (attempts : Nat) : State :=
  { s with
    governor := s.governor.forget t.id
    report := s.report.record (outcomeOf t status attempts) }

def State.withRetry (s : State) (governor : Governor) : State :=
  { s with governor, report := { s.report with rescheduled := s.report.rescheduled + 1 } }

theorem finishTask_aside (r : Run) (t : Task) (status : FinalStatus) (attempts : Nat)
    (s : State) : Aside (s.withOutcome t status attempts) (r.finishTask t status attempts s) := by
  have hrecord : Aside (s.withOutcome t status attempts)
      { record (outcomeOf t status attempts) s with
        governor := (record (outcomeOf t status attempts) s).governor.forget t.id } :=
    ⟨_, _, _, rfl⟩
  exact (hrecord.trans (release_aside r _ _)).trans (closeTask_aside r _ _)

theorem live_queueRetry (r : Run) (item : WorkItem) (s : State) :
    (r.queueRetry item s).live = item ::ₘ s.live := by
  unfold queueRetry
  split
  · simp only [live, unadmitted, underWay, ← Multiset.coe_add, ← Multiset.coe_singleton,
      ← Multiset.singleton_add]
    abel
  · simp only [live, unadmitted, underWay, ← Multiset.cons_coe, Multiset.cons_add]

theorem inFlight_queueRetry (r : Run) (item : WorkItem) (s : State) :
    (r.queueRetry item s).inFlight = s.inFlight := by
  unfold queueRetry
  split <;> rfl

theorem report_queueRetry (r : Run) (item : WorkItem) (s : State) :
    (r.queueRetry item s).report = s.report := by
  unfold queueRetry
  split <;> rfl

theorem governor_queueRetry (r : Run) (item : WorkItem) (s : State) :
    (r.queueRetry item s).governor = s.governor := by
  unfold queueRetry
  split <;> rfl

theorem cancelling_queueRetry (r : Run) (item : WorkItem) (s : State) :
    (r.queueRetry item s).cancelling = s.cancelling := by
  unfold queueRetry
  split <;> rfl

theorem judge_eq_finished_iff (maxAttempts attempt : Nat) (status : Status) :
    Governor.judge maxAttempts attempt status = .final .finished ↔ status = .finished := by
  cases status with
  | exhausted resource =>
    rw [Governor.judge]
    split <;> simp
  | finished => simp [Governor.judge]
  | failed => simp [Governor.judge]
  | crashed => simp [Governor.judge]

theorem reschedule_cases (r : Run) (t : Task) (s : State) :
    (∃ governor, r.reschedule t s =
        r.finishTask t .failed (t.attempt + 1) { s with governor }) ∨
    (∃ attempt limits governor, r.reschedule t s =
        r.queueRetry (.task { t with attempt, limits }) (s.withRetry governor)) := by
  unfold reschedule
  split
  · exact .inl ⟨_, rfl⟩
  · exact .inr ⟨_, _, _, rfl⟩

/-- After an attempt its task has ended or is queued again.  It ends well exactly if the
solution says so. -/
theorem onTask_eq_cases (r : Run) (t : Task) (solution : Solution) (s : State) :
    (∃ status governor, (status = .finished ↔ solution.status = .finished) ∧
      r.onTask t solution s = r.finishTask t status (t.attempt + 1) { s with governor }) ∨
    (∃ attempt limits governor, solution.status ≠ .finished ∧
      r.onTask t solution s =
        r.queueRetry (.task { t with attempt, limits }) (s.withRetry governor)) := by
  unfold onTask
  have hjudge := judge_eq_finished_iff s.governor.policy.maxAttempts
    (s.governor.recordOf t.id).attempt solution.status
  cases hverdict : (s.governor.addSolution t.id solution.status).1 with
  | final status =>
    have hstatus : status = .finished ↔ solution.status = .finished := by
      rw [← hjudge]
      change Governor.judge _ _ _ = _ at hverdict
      rw [hverdict, Verdict.final.injEq]
    simp only [hverdict]
    exact .inl ⟨status, _, hstatus, rfl⟩
  | reschedulable =>
    have hstatus : solution.status ≠ .finished := by
      intro h
      rw [← hjudge] at h
      change Governor.judge _ _ _ = _ at hverdict
      rw [hverdict] at h
      exact Verdict.noConfusion h
    have hfailed : FinalStatus.failed = .finished ↔ solution.status = .finished := by
      simp [hstatus]
    simp only [hverdict]
    split
    · exact .inl ⟨.failed, _, hfailed, rfl⟩
    · rcases reschedule_cases r t _ with ⟨governor, h⟩ | ⟨attempt, limits, governor, h⟩
      · exact .inl ⟨.failed, governor, hfailed, h⟩
      · exact .inr ⟨attempt, limits, governor, hstatus, h⟩

theorem onTask_cases (r : Run) (t : Task) (solution : Solution) (s : State) :
    (∃ status governor, (status = .finished ↔ solution.status = .finished) ∧
      Aside (State.withOutcome { s with governor } t status (t.attempt + 1))
        (r.onTask t solution s)) ∨
    (∃ attempt limits governor, solution.status ≠ .finished ∧
      r.onTask t solution s =
        r.queueRetry (.task { t with attempt, limits }) (s.withRetry governor)) := by
  rcases onTask_eq_cases r t solution s with ⟨status, governor, hstatus, heq⟩ | hagain
  · refine .inl ⟨status, governor, hstatus, ?_⟩
    rw [heq]
    exact finishTask_aside r t _ _ _
  · exact .inr hagain

/-! ### The attempts that are due -/

section
variable {s : State}

theorem onTask_eq_of_last (r : Run) {t : Task} {solution : Solution} {history : List Status}
    (known : s.governor.record? t.id = some ⟨t.attempt, t.limits, history, none⟩)
    (last : s.governor.policy.further? t.attempt t.limits solution.status = none) :
    ∃ governor, Governor.Elsewhere t.id s.governor governor ∧ r.onTask t solution s =
      r.finishTask t solution.status.verdict (t.attempt + 1) { s with governor } := by
  have hverdict := Governor.addSolution_of_record known solution.status
  rw [Governor.judge_of_none last] at hverdict
  refine ⟨_, Governor.elsewhere_addSolution s.governor t.id solution.status, ?_⟩
  unfold onTask
  simp only [hverdict]

theorem onTask_of_last (r : Run) {t : Task} {solution : Solution} {history : List Status}
    (known : s.governor.record? t.id = some ⟨t.attempt, t.limits, history, none⟩)
    (last : s.governor.policy.further? t.attempt t.limits solution.status = none) :
    ∃ governor, Governor.Elsewhere t.id s.governor governor ∧
      Aside (State.withOutcome { s with governor } t solution.status.verdict (t.attempt + 1))
        (r.onTask t solution s) := by
  obtain ⟨governor, helsewhere, heq⟩ := onTask_eq_of_last r known last
  refine ⟨governor, helsewhere, ?_⟩
  rw [heq]
  exact finishTask_aside r t _ _ _

/-- While the run is being cancelled every attempt is the last one. -/
theorem onTask_eq_of_cancelling (r : Run) (cancelling : s.cancelling = true) {t : Task}
    {solution : Solution} {history : List Status}
    (known : s.governor.record? t.id = some ⟨t.attempt, t.limits, history, none⟩) {next : Limits}
    (more : s.governor.policy.further? t.attempt t.limits solution.status = some next) :
    ∃ governor, Governor.Elsewhere t.id s.governor governor ∧
      r.onTask t solution s = r.finishTask t .failed (t.attempt + 1) { s with governor } := by
  have hverdict := Governor.addSolution_of_record known solution.status
  rw [Governor.judge_of_some more] at hverdict
  refine ⟨_, Governor.elsewhere_addSolution s.governor t.id solution.status, ?_⟩
  unfold onTask
  simp only [hverdict]
  rw [if_pos cancelling]

theorem reschedule_of_granted (r : Run) (t : Task) {attempt : Nat}
    (h : (s.governor.reschedule t.id).1 = some attempt) :
    r.reschedule t s = r.queueRetry
      (.task { t with attempt, limits := ((s.governor.reschedule t.id).2.limitsFor t.id).1 })
      (s.withRetry ((s.governor.reschedule t.id).2.limitsFor t.id).2) := by
  unfold reschedule
  split
  · next governor heq =>
    rw [heq] at h
    cases h
  · next attempt' governor heq =>
    rw [heq] at h
    cases h
    simp only [heq]
    rfl

theorem onTask_of_more (r : Run) (active : s.cancelling = false) {t : Task}
    {solution : Solution} {history : List Status}
    (known : s.governor.record? t.id = some ⟨t.attempt, t.limits, history, none⟩) {next : Limits}
    (more : s.governor.policy.further? t.attempt t.limits solution.status = some next) :
    ∃ governor history', Governor.Elsewhere t.id s.governor governor ∧
      governor.record? t.id = some ⟨t.attempt + 1, next, history', none⟩ ∧
      r.onTask t solution s = r.queueRetry
        (.task { t with attempt := t.attempt + 1, limits := next }) (s.withRetry governor) := by
  have hverdict := Governor.addSolution_of_record known solution.status
  rw [Governor.judge_of_some more] at hverdict
  have hadded := Governor.elsewhere_addSolution s.governor t.id solution.status
  have hrecord := Governor.record?_addSolution known more
  rw [← hadded.policy] at more
  obtain ⟨hattempt, hrecord', hgranted⟩ := Governor.reschedule_of_record hrecord more
  generalize hg : (s.governor.addSolution t.id solution.status).2 = g at *
  have hlimits := (g.reschedule t.id).2.recordOf_of_some t.id hrecord'
  refine ⟨((g.reschedule t.id).2.limitsFor t.id).2, history ++ [solution.status],
    (hadded.trans hgranted).trans (Governor.elsewhere_put ..), ?_, ?_⟩
  · rw [Governor.record?_limitsFor_self, hlimits]
  · unfold onTask
    simp only [hverdict, hg]
    rw [if_neg (by simp [active])]
    refine (reschedule_of_granted r t hattempt).trans ?_
    have hnext : ((g.reschedule t.id).2.limitsFor t.id).1 = next := by
      rw [Governor.limitsFor, hlimits]
    rw [hnext]
    rfl

/-- After an attempt that is known its task has ended, or the next attempt is queued. -/
theorem onTask_of_known (r : Run) {t : Task} (solution : Solution) {history : List Status}
    (known : s.governor.record? t.id = some ⟨t.attempt, t.limits, history, none⟩) :
    (∃ status governor, Governor.Elsewhere t.id s.governor governor ∧
      r.onTask t solution s = r.finishTask t status (t.attempt + 1) { s with governor }) ∨
    (∃ next governor history',
      s.governor.policy.further? t.attempt t.limits solution.status = some next ∧
      Governor.Elsewhere t.id s.governor governor ∧
      governor.record? t.id = some ⟨t.attempt + 1, next, history', none⟩ ∧
      r.onTask t solution s = r.queueRetry
        (.task { t with attempt := t.attempt + 1, limits := next }) (s.withRetry governor)) := by
  cases hnext : s.governor.policy.further? t.attempt t.limits solution.status with
  | none => exact .inl ⟨_, onTask_eq_of_last r known hnext⟩
  | some next =>
    by_cases hcancelling : s.cancelling = true
    · exact .inl ⟨_, onTask_eq_of_cancelling r hcancelling known hnext⟩
    · have hactive : s.cancelling = false := by simpa using hcancelling
      obtain ⟨governor, history', helsewhere, hrecord, heq⟩ := onTask_of_more r hactive known hnext
      exact .inr ⟨next, governor, history', rfl, helsewhere, hrecord, heq⟩

end

/-! ### Queues -/

def State.withQueues (s : State) (backlog retries : List WorkItem) : State :=
  { s with backlog, retries }

section
variable (backlog retries : List WorkItem) (s : State)

theorem announce_withQueues (total : Nat) :
    announce total (s.withQueues backlog retries) =
      (announce total s).withQueues backlog retries := by
  unfold announce
  simp only [withQueues]
  split <;> rfl

theorem release_withQueues (r : Run) (dir : Path) :
    r.release dir (s.withQueues backlog retries) =
      (r.release dir s).withQueues backlog retries := by
  unfold release
  split <;> rfl

theorem afterAbstract_withQueues :
    afterAbstract (s.withQueues backlog retries) =
      (afterAbstract s).withQueues backlog retries := by
  by_cases h : s.pendingAbstract = 0
  · have hleft : afterAbstract (s.withQueues backlog retries) =
        announce s.expectedTotal (s.withQueues backlog retries) := if_pos h
    rw [hleft, announce_withQueues, afterAbstract, if_pos h]
  · have hleft : afterAbstract (s.withQueues backlog retries) = s.withQueues backlog retries :=
      if_neg h
    rw [hleft, afterAbstract, if_neg h]

theorem closeTask_withQueues (r : Run) (id : AbstractTaskId) :
    r.closeTask id (s.withQueues backlog retries) =
      (r.closeTask id s).withQueues backlog retries := by
  have hopen : (s.withQueues backlog retries).openTasks = s.openTasks := rfl
  unfold closeTask
  rw [hopen]
  cases s.openTasks.lookup id with
  | none => rfl
  | some count =>
    dsimp only
    by_cases h : count - 1 = 0
    · rw [if_pos h, if_pos h]
      exact release_withQueues backlog retries
        { s with openTasks := s.openTasks.filter fun p => p.1 ≠ id } r _
    · rw [if_neg h, if_neg h]
      rfl

theorem foldl_record_withQueues (id : AbstractTaskId) (qs : List String) :
    qs.foldl (fun s q => record (outcomeWithoutModel id q) s) (s.withQueues backlog retries) =
      (qs.foldl (fun s q => record (outcomeWithoutModel id q) s) s).withQueues backlog retries := by
  induction qs generalizing s with
  | nil => rfl
  | cons q qs ih => exact ih (record (outcomeWithoutModel id q) s)

theorem failClass_withQueues (r : Run) (id : AbstractTaskId) (c : RequirementClass) :
    r.failClass id c (s.withQueues backlog retries) =
      (r.failClass id c s).withQueues backlog retries := by
  have hfold := foldl_record_withQueues backlog retries
    { s with expectedTotal := s.expectedTotal + c.size } id c.identifiers
  unfold failClass
  refine Eq.trans ?_ (afterAbstract_withQueues backlog retries _)
  refine congrArg afterAbstract (Eq.trans ?_ (release_withQueues backlog retries _ r _))
  exact congrArg (r.release _) hfold

/-- What waits plays no part when an item is given up. -/
theorem dropItem_withQueues (r : Run) (item : WorkItem) :
    r.dropItem item (s.withQueues backlog retries) =
      (r.dropItem item s).withQueues backlog retries := by
  cases item with
  | abstractTask t =>
    unfold dropItem onAbstract
    dsimp only
    split
    · rfl
    · exact failClass_withQueues backlog retries
        { s with
          pendingAbstract := s.pendingAbstract - 1
          report := { s.report with abstractTasks := s.report.abstractTasks + 1 } } r _ _
  | task t =>
    unfold dropItem finishTask
    refine Eq.trans ?_ (closeTask_withQueues backlog retries _ r _)
    exact congrArg (r.closeTask _) (release_withQueues backlog retries
      { record (outcomeOf t .failed t.attempt) s with
        governor := (record (outcomeOf t .failed t.attempt) s).governor.forget t.id } r _)

theorem foldl_dropItem_withQueues (r : Run) (items : List WorkItem) :
    items.foldl (fun s item => r.dropItem item s) (s.withQueues backlog retries) =
      (items.foldl (fun s item => r.dropItem item s) s).withQueues backlog retries := by
  induction items generalizing s with
  | nil => rfl
  | cons item items ih =>
    rw [List.foldl_cons, List.foldl_cons, dropItem_withQueues]
    exact ih (r.dropItem item s)

end

/-! ### The last state -/

theorem finish_eq (now : Duration) (s : State) :
    ∃ total openTasks effects metrics, finish now s =
      { s with report := { s.report with total := total, metrics }, openTasks, effects } := by
  obtain ⟨total, openTasks, effects, h⟩ := announce_aside s.expectedTotal s
  refine ⟨total, openTasks, effects, s.report.metrics.finish now, ?_⟩
  rw [finish, h]

end Run
end TaskGen
