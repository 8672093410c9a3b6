import TaskGen.Proofs.Run.Accounting
import TaskGen.Proofs.Run.Records
import TaskGen.Proofs.Run.Tally

/-!
What comes out of a run that is not cancelled depends on the answers of the workers and on
nothing else: not on the order in which they come, not on how many items are under way at once
and not on when further attempts are made.

At any time the report so far and what will come of the live items make up what the report has
in the end.
-/

namespace TaskGen
namespace Run

open State

variable {r : Run} {s : State}

/-! ### One completion -/

/-- After the attempts at the tasks that live, this is what the report will say. -/
structure Forecast (r : Run) (o : Oracle) (total : Tally) (s : State) : Prop where
  governed : Governed r.config.escalation s.live s.governor
  active : s.cancelling = false
  balance : s.report.tally + r.fates o s.live = total

variable {o : Oracle} {total : Tally}

theorem State.Aside.tally_eq {s s' : State} (h : Aside s s') :
    s'.report.tally = s.report.tally := by
  obtain ⟨total, heq⟩ := h.report_eq
  rw [heq]
  rfl

theorem Forecast.of_aside {s s' : State} (h : Forecast r o total s) (aside : Aside s s') :
    Forecast r o total s' where
  governed := by
    rw [aside.live_eq, aside.governor_eq]
    exact h.governed
  active := aside.cancelling_eq.trans h.active
  balance := by
    rw [aside.live_eq, aside.tally_eq]
    exact h.balance

theorem tally_withFailedClass (s : State) (id : AbstractTaskId) (cls : RequirementClass) :
    (s.withFailedClass id cls).report.tally =
      s.report.tally + ⟨cls.identifiers.map (outcomeWithoutModel id), 1, 0, 0, 0⟩ := rfl

theorem tally_withTasks (s : State) (id : AbstractTaskId) (cls : RequirementClass)
    (models : List EnvModel) : (s.withTasks id cls models).report.tally =
      s.report.tally + ⟨0, 1, models.length, models.length * cls.size, 0⟩ := by
  rw [Tally.add_def, Report.tally, Report.tally, add_zero]
  rfl

theorem tally_withRetry (s : State) (governor : Governor) :
    (s.withRetry governor).report.tally = s.report.tally + .again := by
  rw [Tally.again, Tally.add_def, Report.tally, Report.tally, add_zero]
  rfl

theorem tally_record (rep : Report) (outcome : TaskOutcome) :
    (rep.record outcome).tally = rep.tally + .ofOutcome outcome := by
  unfold Report.record
  split <;> rfl

/-- The first attempts at the tasks of an abstract task come to what is said of it. -/
theorem fates_firstAttempt (r : Run) (o : Oracle) {g : Governor} {tasks : List (TaskId × Path)}
    (fresh : ∀ task ∈ tasks, (g.recordOf task.1).limits = r.config.escalation.defaults) :
    r.fates o ↑(tasks.map (firstAttempt g)) =
      (tasks.map fun task => taskFate r.config.escalation task.1 (o.solution task.1) 0
        r.config.escalation.defaults).sum := by
  rw [fates, Multiset.map_coe, Multiset.sum_coe, List.map_map]
  refine congrArg List.sum (List.map_congr_left fun task htask => ?_)
  rw [Function.comp_apply, firstAttempt, fate, fresh task htask]

structure Due (r : Run) (o : Oracle) (total : Tally) (item : WorkItem) (s : State) : Prop where
  governed : Governed r.config.escalation (item ::ₘ s.live) s.governor
  apart : KeysApart ((item ::ₘ s.live).map WorkItem.key)
  active : s.cancelling = false
  balance : s.report.tally + (r.fate o item + r.fates o s.live) = total

namespace Due

theorem unclassed {t : AbstractTask} (due : Due r o total (.abstractTask t) s)
    (hclass : Dict.find? r.classes t.id.classKey = none)
    (models : Except String (List EnvModel)) :
    Forecast r o total (r.onAbstract t models s) := by
  have htally : (r.onAbstract t models s).report.tally = s.report.tally + ⟨0, 1, 0, 0, 0⟩ := by
    rw [onAbstract, hclass, Tally.add_def, Report.tally, Report.tally, add_zero]
    rfl
  have hfate : r.fate o (.abstractTask t) = ⟨0, 1, 0, 0, 0⟩ := by rw [fate, hclass]
  have hbalance := due.balance
  rw [hfate, ← add_assoc, ← htally] at hbalance
  rw [onAbstract, hclass] at hbalance ⊢
  exact ⟨due.governed.of_abstract, due.active, hbalance⟩

section
variable {t : AbstractTask} (due : Due r o total (.abstractTask t) s) {cls : RequirementClass}
  (hclass : Dict.find? r.classes t.id.classKey = some cls)
include due hclass

theorem failed (hmodels : modelsOf (o.models t.id) = []) :
    Forecast r o total (s.withFailedClass t.id cls) := by
  have hfate : r.fate o (.abstractTask t) =
      ⟨cls.identifiers.map (outcomeWithoutModel t.id), 1, 0, 0, 0⟩ := by
    rw [fate, hclass]
    exact if_pos (by simp [hmodels])
  have hbalance := due.balance
  rw [hfate, ← add_assoc, ← tally_withFailedClass] at hbalance
  exact ⟨due.governed.of_abstract, due.active, hbalance⟩

theorem fanned (hmodels : modelsOf (o.models t.id) ≠ []) :
    Forecast r o total (s.withTasks t.id cls (modelsOf (o.models t.id))) := by
  have hown : ∀ i ∈ (constructed t.id cls (modelsOf (o.models t.id))).map Prod.fst,
      i.abstractId = t.id := fun i hi => abstractId_of_mem_constructed hi
  have hfates := @fates_firstAttempt r o s.governor
    (constructed t.id cls (modelsOf (o.models t.id))) fun task htask => by
      rw [due.governed.recordOf_of_abstract due.apart (hown _ (List.mem_map_of_mem htask))]
  have hfate : r.fate o (.abstractTask t) =
      ⟨0, 1, (modelsOf (o.models t.id)).length,
        (modelsOf (o.models t.id)).length * cls.size, 0⟩ +
      r.fates o ↑((constructed t.id cls (modelsOf (o.models t.id))).map
        (firstAttempt s.governor)) := by
    rw [fate, hclass, hfates]
    exact if_neg (by simpa using hmodels)
  refine ⟨?_, due.active, ?_⟩
  · rw [live_withTasks]
    exact due.governed.fanned due.apart hown
  · rw [live_withTasks, fates_add, tally_withTasks, ← due.balance, hfate]
    abel

end

section
variable {t : Task} (due : Due r o total (.task t) s)
include due

theorem ended {status : Status}
    (hstatus : (o.solution t.id t.attempt t.limits).status = status)
    (last : r.config.escalation.further? t.attempt t.limits status = none) {governor : Governor}
    (elsewhere : Governor.Elsewhere t.id s.governor governor) :
    Forecast r o total
      (State.withOutcome { s with governor } t status.verdict (t.attempt + 1)) := by
  subst hstatus
  have hfate := @taskFate_of_none _ t.id (o.solution t.id) _ _ last
  have hbalance := due.balance
  rw [fate, hfate, ← add_assoc] at hbalance
  refine ⟨due.governed.ended due.apart.nodup elsewhere, due.active, ?_⟩
  rw [withOutcome, tally_record]
  exact hbalance

theorem again {status : Status}
    (hstatus : (o.solution t.id t.attempt t.limits).status = status) {next : Limits}
    (more : r.config.escalation.further? t.attempt t.limits status = some next)
    {governor : Governor} (elsewhere : Governor.Elsewhere t.id s.governor governor)
    {history : List Status}
    (record : governor.record? t.id = some ⟨t.attempt + 1, next, history, none⟩) :
    Forecast r o total (r.queueRetry
      (.task { t with attempt := t.attempt + 1, limits := next }) (s.withRetry governor)) := by
  subst hstatus
  have hfate : r.fate o (.task t) =
      .again + r.fate o (.task { t with attempt := t.attempt + 1, limits := next }) :=
    taskFate_of_some more
  refine ⟨?_, ?_, ?_⟩
  · rw [live_queueRetry, governor_queueRetry]
    exact due.governed.retried due.apart.nodup elsewhere rfl record
  · rw [cancelling_queueRetry]
    exact due.active
  · rw [live_queueRetry, report_queueRetry, fates_cons, tally_withRetry, ← due.balance, hfate,
      add_assoc, add_assoc]
    rfl

end

/-- The forecast is the same after a completion is dealt with, if it is the one that was to be
expected. -/
theorem deal {c : Completion} (due : Due r o total c.item s) (gives : o.Gives c) :
    Forecast r o total (r.deal c s) := by
  cases c with
  | abstractTask t models =>
    have hgives : models = o.models t.id := gives
    subst hgives
    cases hclass : Dict.find? r.classes t.id.classKey with
    | none => exact due.unclassed hclass _
    | some cls =>
      by_cases hmodels : modelsOf (o.models t.id) = []
      · exact (due.failed hclass hmodels).of_aside (onAbstract_aside_of_nil r t s hclass hmodels)
      · exact (due.fanned hclass hmodels).of_aside
          (onAbstract_aside_of_ne_nil r t s hclass hmodels)
  | task t solution =>
    -- The record of the task says what its fate says, so both go on or both end.
    have hgives : solution = o.solution t.id t.attempt t.limits := gives
    have hstatus := congrArg Solution.status hgives.symm
    have hpolicy := due.governed.policy
    obtain ⟨history, hknown⟩ := due.governed.known t (Multiset.mem_cons_self _ _)
    cases hnext : r.config.escalation.further? t.attempt t.limits solution.status with
    | none =>
      obtain ⟨governor, helsewhere, haside⟩ := onTask_of_last r hknown (hpolicy ▸ hnext)
      exact (due.ended hstatus hnext helsewhere).of_aside haside
    | some next =>
      obtain ⟨governor, history', helsewhere, hrecord, heq⟩ :=
        onTask_of_more r due.active hknown (hpolicy ▸ hnext)
      rw [Run.deal, heq]
      exact due.again hstatus hnext helsewhere hrecord

end Due

/-! ### A whole run -/

theorem Forecast.onCompletion (forecast : Forecast r o total s) (sound : s.Sound)
    {c : Completion} (hmem : c.item ∈ s.underWay) (gives : o.Gives c) (now : Duration) :
    Forecast r o total (r.onCompletion now c s) := by
  obtain ⟨metrics, heq⟩ := onCompletion_eq_deal r now sound hmem
  have hlive := sound.live_eq hmem
  have due : Due r o total c.item ((s.without c.key).withMetrics metrics) := by
    have hgoverned := forecast.governed
    have hapart := sound.apart
    have hbalance := forecast.balance
    rw [keys, hlive] at hapart
    rw [hlive] at hgoverned hbalance
    rw [fates_cons] at hbalance
    exact ⟨hgoverned, hapart, forecast.active, hbalance⟩
  rw [heq]
  exact due.deal gives

section
variable {fragments : FragmentSet} {workers : Nat} {es : List Event} {y y' : System}

/-- Without a cancellation a run goes on until it returns. -/
theorem Trace.phase_of_uncancelled (run : Trace r fragments workers es y)
    (uncancelled : .cancel ∉ es) : y.phase = .running ∨ y.phase = .returned := by
  induction run with
  | start => exact .inl rfl
  | @step es e y y' run next ih =>
    have hphase := ih fun h => uncancelled (List.mem_append_left _ h)
    cases next with
    | cancel running settled =>
      exact absurd (List.mem_append_right _ (List.mem_singleton.2 rfl)) uncancelled
    | abort draining => rw [draining] at hphase; simp at hphase
    | strand now aborted => rw [aborted] at hphase; simp at hphase
    | drop aborted => rw [aborted] at hphase; simp at hphase
    | conclude now aborted => exact .inr rfl
    | finish now running => exact .inr rfl
    | _ => exact hphase

/-- Every step but a cancellation keeps the forecast. -/
theorem Step.forecast {e : Event} (step : Step r y e y') (sound : y.Sound r)
    (ongoing : y.phase = .running ∨ y.phase = .returned) (uncancelled : e ≠ .cancel)
    (follows : ∀ c ∈ e.completion?, o.Gives c) (forecast : Forecast r o total y.state) :
    Forecast r o total y'.state := by
  have hneither : y.phase ≠ .aborted := by
    rcases ongoing with h | h <;> rw [h] <;> exact Phase.noConfusion
  cases hcompletion : e.completion? with
  | some c =>
    obtain ⟨hmem, now, hstate⟩ := step.state_of_completion sound hcompletion
    rw [hstate]
    exact forecast.onCompletion sound.state hmem (follows c hcompletion) now
  | none =>
    cases step with
    | @enter item rest now running room next =>
      obtain ⟨_, backlog, retries, hrest⟩ := unadmitted_of_next? next
      have hlive := (enter_sound sound.state next now).2.2
      rw [sound.admitNext_state next room now]
      refine ⟨?_, ?_, ?_⟩
      · rw [hlive]
        exact hrest ▸ forecast.governed
      · exact hrest ▸ forecast.active
      · rw [hlive]
        exact hrest ▸ forecast.balance
    | observe running => exact ⟨forecast.governed, forecast.active, forecast.balance⟩
    | receive waits free => exact forecast
    | complete busy => exact forecast
    | report done room => exact forecast
    | lose => exact forecast
    | refuse now running first => cases hcompletion
    | handle now going settled first => cases hcompletion
    | cancel running settled => exact absurd rfl uncancelled
    | abort draining => exact forecast
    | strand now aborted => exact absurd aborted hneither
    | drop aborted => exact absurd aborted hneither
    | finish now running settled done =>
      obtain ⟨_, _, _, _, heq⟩ := finish_eq now y.state
      rw [heq]
      exact ⟨forecast.governed, forecast.active, forecast.balance⟩
    | conclude now aborted => exact absurd aborted hneither

def outlook (r : Run) (o : Oracle) (fragments : FragmentSet) : Tally :=
  ((r.abstractTasks fragments).map fun t => r.fate o (.abstractTask t)).sum

theorem start_forecast (r : Run) (o : Oracle) (fragments : FragmentSet) :
    Forecast r o (r.outlook o fragments) (r.start fragments) where
  governed := start_governed r fragments
  active := (start_aside r fragments).cancelling_eq
  balance := by
    have htally : (r.start fragments).report.tally = 0 := (start_aside r fragments).tally_eq
    rw [htally, zero_add, live_start, fates, Multiset.map_coe, Multiset.sum_coe, List.map_map]
    rfl

theorem Trace.forecast (wf : r.classes.WellFormed) (ordered : Dict.Ordered fragments)
    (run : Trace r fragments workers es y) (uncancelled : .cancel ∉ es)
    (distinct : ∀ c ∈ handled es, c.DistinctModels) (follows : ∀ c ∈ handled es, o.Gives c) :
    Forecast r o (r.outlook o fragments) y.state := by
  induction run with
  | start => exact start_forecast r o fragments
  | @step es e y y' run next ih =>
    rw [handled_append] at distinct follows
    have hbefore : .cancel ∉ es := fun h => uncancelled (List.mem_append_left _ h)
    have hdistinct : ∀ c ∈ handled es, c.DistinctModels :=
      fun c hc => distinct c (List.mem_append_left _ hc)
    refine next.forecast (run.sound wf ordered hdistinct) (run.phase_of_uncancelled hbefore) ?_
      (fun c hc => ?_) (ih hbefore hdistinct fun c hc => follows c (List.mem_append_left _ hc))
    · rintro rfl
      exact uncancelled (List.mem_append_right _ (List.mem_singleton.2 rfl))
    · exact follows c (List.mem_append_right _ (Option.mem_toList.2 hc))

/-- The report of an uncancelled run is what it comes to with these answers. -/
theorem Trace.tally_eq (wf : r.classes.WellFormed) (ordered : Dict.Ordered fragments)
    (run : Trace r fragments workers es y) (uncancelled : .cancel ∉ es)
    (distinct : ∀ c ∈ handled es, c.DistinctModels) (follows : ∀ c ∈ handled es, o.Gives c)
    (returned : y.phase = .returned) : y.state.report.tally = r.outlook o fragments := by
  have hbalance := (run.forecast wf ordered uncancelled distinct follows).balance
  rw [run.live_of_returned returned, fates_zero, add_zero] at hbalance
  exact hbalance

end

/-! ### Two runs -/

def Follows (o : Oracle) (es : List Event) : Prop := ∀ c ∈ handled es, o.Gives c

theorem Trace.opened {fragments : FragmentSet} {workers : Nat} {es : List Event} {y : System}
    (run : Trace r fragments workers es y) (uncancelled : .cancel ∉ es) (kept : .lose ∉ es) :
    y.channel.closed = false := by
  induction run with
  | start => rfl
  | @step es e y y' run next ih =>
    have hbefore : .cancel ∉ es := fun h => uncancelled (List.mem_append_left _ h)
    have hopened := ih hbefore fun h => kept (List.mem_append_left _ h)
    cases next with
    | enter now running room next =>
      rw [System.admitNext]
      exact (admitUpTo_closed ..).trans hopened
    | lose => exact absurd (List.mem_append_right _ (List.mem_singleton.2 rfl)) kept
    | abort draining =>
      rcases run.phase_of_uncancelled hbefore with h | h <;> rw [draining] at h <;> cases h
    | _ => exact hopened

/-- The answers of the workers are all that the loop deals with, as long as there are workers
and nobody cancels the run. -/
theorem Trace.follows {fragments : FragmentSet} {workers : Nat} {es : List Event} {y : System}
    (wf : r.classes.WellFormed) (ordered : Dict.Ordered fragments)
    (run : Trace r fragments workers es y) (uncancelled : .cancel ∉ es) (kept : .lose ∉ es)
    (distinct : o.DistinctModels) (answers : Answers o.Gives es) : Follows o es := by
  induction run with
  | start => exact fun c hc => absurd hc List.not_mem_nil
  | @step es e y y' run next ih =>
    have hanswers := answers.of_append
    have hcancel : .cancel ∉ es := fun h => uncancelled (List.mem_append_left _ h)
    have hkept : .lose ∉ es := fun h => kept (List.mem_append_left _ h)
    intro c hc
    rw [handled_append] at hc
    rcases List.mem_append.1 hc with hold | hlast
    · exact ih hcancel hkept hanswers c hold
    · have hcompletion : e.completion? = some c := Option.mem_toList.1 hlast
      have hdistinct : Answers Completion.DistinctModels es :=
        fun c hc => distinct.completion (hanswers c hc)
      have hsound := run.sound wf ordered (run.distinct_handled hdistinct)
      -- The loop makes up completions only if the channel is closed or after it has given up.
      cases next with
      | refuse now running first =>
        have hnone := hsound.accepted (run.opened hcancel hkept)
        rw [first] at hnone
        cases hnone
      | handle now going settled first =>
        cases hcompletion
        refine hanswers c (run.of_answered c ?_)
        rw [System.answered, first]
        exact List.mem_append_right _ List.mem_cons_self
      | strand now aborted =>
        rcases run.phase_of_uncancelled hcancel with h | h <;> rw [aborted] at h <;> cases h
      | _ => cases hcompletion

/-- With the same classes and the same escalation the same is to be expected. -/
theorem outlook_congr {r₁ r₂ : Run} (classes : r₂.classes = r₁.classes)
    (policy : r₂.config.escalation = r₁.config.escalation) (o : Oracle)
    (fragments : FragmentSet) : r₂.outlook o fragments = r₁.outlook o fragments := by
  have hfate : ∀ item, r₂.fate o item = r₁.fate o item := by
    intro item
    cases item with
    | abstractTask t => rw [fate, fate, classes, policy]
    | task t => rw [fate, fate, policy]
  rw [outlook, outlook, abstractTasks, abstractTasks, classes]
  exact congrArg List.sum (List.map_congr_left fun t _ => hfate _)

theorem outlook_alike (r : Run) {o₁ o₂ : Oracle} {id : TaskId} (models : o₁.models = o₂.models)
    (others : ∀ i, i ≠ id → o₁.solution i = o₂.solution i) (fragments : FragmentSet) :
    Alike id (r.outlook o₁ fragments) (r.outlook o₂ fragments) :=
  .sum _ fun _ _ => fate_alike r models others _

structure SameResults (a b : Report) : Prop where
  outcomes : a.outcomes.Perm b.outcomes
  abstractTasks : a.abstractTasks = b.abstractTasks
  envModels : a.envModels = b.envModels
  tasksConstructed : a.tasksConstructed = b.tasksConstructed
  finished : a.finished = b.finished
  failed : a.failed = b.failed
  rescheduled : a.rescheduled = b.rescheduled

/-- The reports agree in what they say about all other tasks, and they tell of the same ones. -/
structure SameElsewhere (id : TaskId) (a b : Report) : Prop where
  outcomes : (a.outcomes.filter fun o => o.place ≠ id.place).Perm
    (b.outcomes.filter fun o => o.place ≠ id.place)
  places : (a.outcomes.map TaskOutcome.place).Perm (b.outcomes.map TaskOutcome.place)
  abstractTasks : a.abstractTasks = b.abstractTasks
  envModels : a.envModels = b.envModels
  tasksConstructed : a.tasksConstructed = b.tasksConstructed

theorem sameResults_of_tally_eq {a b : Report} (ha : a.Counted) (hb : b.Counted)
    (h : a.tally = b.tally) : SameResults a b := by
  have houtcomes : a.outcomes.Perm b.outcomes :=
    Multiset.coe_eq_coe.1 (congrArg Tally.outcomes h)
  refine ⟨houtcomes, congrArg Tally.abstractTasks h, congrArg Tally.envModels h,
    congrArg Tally.tasksConstructed h, ?_, ?_, congrArg Tally.rescheduled h⟩
  · rw [ha.1, hb.1, houtcomes.countP_eq]
  · rw [ha.2, hb.2, houtcomes.countP_eq]

theorem sameElsewhere_of_alike {id : TaskId} {a b : Report} (h : Alike id a.tally b.tally) :
    SameElsewhere id a b where
  outcomes := Multiset.coe_eq_coe.1 h.others
  places := Multiset.coe_eq_coe.1 h.places
  abstractTasks := h.abstractTasks
  envModels := h.envModels
  tasksConstructed := h.tasksConstructed

/-- With the same answers two runs tell the same, whatever their order, their limits and their
workers.  With other answers to one task they tell the same of all others. -/
theorem results_independent {r₁ r₂ : Run} {digest : List ConfiguredStage → String}
    {rs : List Requirement} (classes₁ : r₁.classes = RequirementClasses.classifyWith digest rs)
    (distinct : (rs.map (·.identifier)).Nodup) (classes₂ : r₂.classes = r₁.classes)
    (policy : r₂.config.escalation = r₁.config.escalation) {fragments : FragmentSet}
    (ordered : Dict.Ordered fragments) {o₁ o₂ : Oracle} (models : o₁.models = o₂.models)
    (distinctModels : o₁.DistinctModels) {workers₁ workers₂ : Nat} {es₁ es₂ : List Event}
    {y₁ y₂ : System} (run₁ : Trace r₁ fragments workers₁ es₁ y₁)
    (run₂ : Trace r₂ fragments workers₂ es₂ y₂) (uncancelled₁ : .cancel ∉ es₁)
    (uncancelled₂ : .cancel ∉ es₂) (follows₁ : Follows o₁ es₁) (follows₂ : Follows o₂ es₂)
    (returned₁ : y₁.phase = .returned) (returned₂ : y₂.phase = .returned) :
    (o₁.solution = o₂.solution → SameResults y₁.state.report y₂.state.report) ∧
    ∀ id, (∀ i, i ≠ id → o₁.solution i = o₂.solution i) →
      SameElsewhere id y₁.state.report y₂.state.report := by
  have hwf₁ := RequirementClasses.WellFormed.of_eq classes₁ distinct
  have hwf₂ := RequirementClasses.WellFormed.of_eq (classes₂.trans classes₁) distinct
  have hmodels₂ : o₂.DistinctModels := by
    unfold Oracle.DistinctModels
    rw [← models]
    exact distinctModels
  have hdistinct₁ : ∀ c ∈ handled es₁, c.DistinctModels :=
    fun c hc => distinctModels.completion (follows₁ c hc)
  have hdistinct₂ : ∀ c ∈ handled es₂, c.DistinctModels :=
    fun c hc => hmodels₂.completion (follows₂ c hc)
  -- What a run comes to is said without the run, so it is enough that they agree on that.
  have htally₁ := run₁.tally_eq hwf₁ ordered uncancelled₁ hdistinct₁ follows₁ returned₁
  have htally₂ := run₂.tally_eq hwf₂ ordered uncancelled₂ hdistinct₂ follows₂ returned₂
  rw [outlook_congr classes₂ policy] at htally₂
  refine ⟨fun hsolution => ?_, fun id hothers => ?_⟩
  · have horacle : o₁ = o₂ := by
      cases o₁
      cases o₂
      cases models
      cases hsolution
      rfl
    have hcounted₁ := (run₁.accounts hwf₁ ordered hdistinct₁).counted
    have hcounted₂ := (run₂.accounts hwf₂ ordered hdistinct₂).counted
    refine sameResults_of_tally_eq hcounted₁ hcounted₂ ?_
    rw [htally₁, htally₂, horacle]
  · refine sameElsewhere_of_alike ?_
    rw [htally₁, htally₂]
    exact outlook_alike r₁ models hothers fragments

theorem results_independent_of_sample :
    ∃ o es₁ es₂ y₁ y₂, Trace (sample 1 true) [("f", ⟨"f.json"⟩)] 1 es₁ y₁ ∧
      Trace (sample 2 false) [("f", ⟨"f.json"⟩)] 3 es₂ y₂ ∧ Follows o es₁ ∧ Follows o es₂ ∧
      y₁.phase = .returned ∧ y₂.phase = .returned ∧ y₁.state.report.finished = 1 ∧
      SameResults y₁.state.report y₂.state.report := by
  let t : AbstractTask := ⟨⟨"f", "alloc"⟩, ⟨"f.json"⟩⟩
  let m : EnvModel := ⟨"m", ⟨"m"⟩, ⟨"m.json"⟩⟩
  let t' : Task := ⟨⟨"f", "alloc", "m", "alloc"⟩, 0, .standard, m.artifact⟩
  let o : Oracle := ⟨fun _ => .ok [m], fun _ _ _ => .finished⟩
  have modelled₁ := @Trace.turn (sample 1 true) [("f", ⟨"f.json"⟩)] 1 _ []
    (.abstractTask t (.ok [m])) _ _ .start rfl (by decide) ⟨1⟩
  have solved₁ := @Trace.turn _ _ _ _ _ (.task t' .finished) _ _ modelled₁ rfl (by decide) ⟨2⟩
  have run₁ := solved₁.step (.finish ⟨3⟩ rfl rfl rfl)
  have modelled₂ := @Trace.turn (sample 2 false) [("f", ⟨"f.json"⟩)] 3 _ [.idle, .idle]
    (.abstractTask t (.ok [m])) _ _ .start rfl (by decide) ⟨5⟩
  have solved₂ := @Trace.turn _ _ _ _ _ (.task t' .finished) _ _ modelled₂ rfl (by decide) ⟨8⟩
  have run₂ := solved₂.step (.finish ⟨9⟩ rfl rfl rfl)
  have hdistinct : o.DistinctModels := fun _ => List.nodup_singleton _
  have hfollows : ∀ es, handled es = [.abstractTask t (.ok [m]), .task t' .finished] →
      Follows o es := by
    intro es h c hc
    rw [h] at hc
    simp only [List.mem_cons, List.not_mem_nil, or_false] at hc
    rcases hc with rfl | rfl <;> rfl
  refine ⟨o, _, _, _, _, run₁, run₂, hfollows _ rfl, hfollows _ rfl, rfl, rfl, rfl, ?_⟩
  refine (@results_independent (sample 1 true) (sample 2 false) fingerprint _ rfl (by decide)
    rfl rfl _ (List.pairwise_singleton _ _) o o rfl hdistinct _ _ _ _ _ _ run₁ run₂ (by simp)
    (by simp) (hfollows _ rfl) (hfollows _ rfl) rfl rfl).1 rfl

end Run
end TaskGen
