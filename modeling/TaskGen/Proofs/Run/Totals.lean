import TaskGen.Proofs.Run.Reckoning
import TaskGen.Proofs.Run.Releases

/-!
The total that a run announces.  It is announced once.  Where any number of models is expected
it waits for the last abstract task, and then it is the number of the ends that are told, be
they told before or after.  Where one model for each fragment is expected it comes first.

Main statement: `balanced_of_returned`.
-/

namespace TaskGen
namespace Run

open State

def Effect.total? : Effect → Option Nat
  | .announce total => some total
  | _ => none

def State.endings (s : State) : List (String × FinalStatus) :=
  s.report.outcomes.map fun o => (o.requirement, o.status)

/-! ### What is told is what is recorded -/

/-- What has been added to the effects between two states tells what has been added to the
report. -/
def Informs (s s' : State) : Prop :=
  ∃ new, s'.effects = s.effects ++ new ∧
    s'.endings = s.endings ++ new.filterMap Effect.told? ∧
    s'.report.total.toList = s.report.total.toList ++ new.filterMap Effect.total?

namespace Informs

variable {r : Run} {s s' s'' : State}

theorem of_eq (effects : s'.effects = s.effects) (outcomes : s'.report.outcomes = s.report.outcomes)
    (total : s'.report.total = s.report.total) : Informs s s' :=
  ⟨[], by simp [effects], by simp [endings, outcomes], by simp [total]⟩

theorem refl (s : State) : Informs s s := of_eq rfl rfl rfl

theorem trans (h : Informs s s') (h' : Informs s' s'') : Informs s s'' := by
  obtain ⟨new, heffects, hendings, htotal⟩ := h
  obtain ⟨new', heffects', hendings', htotal'⟩ := h'
  refine ⟨new ++ new', ?_, ?_, ?_⟩
  · rw [heffects', heffects, List.append_assoc]
  · rw [hendings', hendings, List.filterMap_append, List.append_assoc]
  · rw [htotal', htotal, List.filterMap_append, List.append_assoc]

theorem foldl {α : Type} {f : State → α → State} (step : ∀ s a, Informs s (f s a)) (as : List α)
    (s : State) : Informs s (as.foldl f s) := by
  induction as generalizing s with
  | nil => exact refl s
  | cons a as ih => exact (step s a).trans (ih (f s a))

theorem announce (total : Nat) (s : State) : Informs s (announce total s) := by
  unfold Run.announce
  cases htotal : s.report.total with
  | some n => exact refl s
  | none =>
    exact ⟨[.announce total], rfl, by simp [endings, emit, Effect.told?],
      by simp [htotal, emit, Effect.total?]⟩

theorem release (r : Run) (dir : Path) (s : State) : Informs s (r.release dir s) := by
  unfold Run.release
  split
  · exact refl s
  · exact ⟨[.release dir], rfl, by simp [endings, emit, Effect.told?],
      by simp [emit, Effect.total?]⟩

theorem record (o : TaskOutcome) (s : State) : Informs s (record o s) := by
  refine ⟨[.complete o.requirement o.status], rfl, ?_, ?_⟩
  · simp [Run.record, emit, endings, Report.outcomes_record, Effect.told?]
  · have htotal : (s.report.record o).total = s.report.total := by
      unfold Report.record
      split <;> rfl
    simp [Run.record, emit, htotal, Effect.total?]

theorem afterAbstract (s : State) : Informs s (afterAbstract s) := by
  unfold Run.afterAbstract
  split
  · exact announce _ s
  · exact refl s

theorem onAbstract (t : AbstractTask) (models : Except String (List EnvModel)) (s : State) :
    Informs s (r.onAbstract t models s) := by
  have hbegun : Informs s s.withAbstract := of_eq rfl rfl rfl
  cases hclass : Dict.find? r.classes t.id.classKey with
  | none =>
    rw [Run.onAbstract, hclass]
    exact hbegun
  | some c =>
    by_cases hmodels : modelsOf models = []
    · rw [onAbstract_of_nil r t s hclass hmodels]
      unfold failClass
      dsimp only
      have hgrown : Informs s.withAbstract
          { s.withAbstract with expectedTotal := s.withAbstract.expectedTotal + c.size } :=
        of_eq rfl rfl rfl
      have hrecorded := foldl (fun s q => record (outcomeWithoutModel t.id q) s) c.identifiers
        { s.withAbstract with expectedTotal := s.withAbstract.expectedTotal + c.size }
      exact (((hbegun.trans hgrown).trans hrecorded).trans (release r _ _)).trans (afterAbstract _)
    · rw [onAbstract_of_ne_nil r t s hclass hmodels]
      refine Informs.trans ?_ (afterAbstract _)
      rw [foldl_queueTask]
      exact of_eq rfl rfl rfl

theorem closeTask (id : AbstractTaskId) (s : State) : Informs s (r.closeTask id s) := by
  unfold Run.closeTask
  split
  · exact refl s
  · dsimp only
    split
    · exact Informs.trans (of_eq rfl rfl rfl) (release r _ _)
    · exact of_eq rfl rfl rfl

theorem finishTask (t : Task) (status : FinalStatus) (attempts : Nat) (s : State)
    (governor : Governor) : Informs s (r.finishTask t status attempts { s with governor }) := by
  have hrecorded := record (outcomeOf t status attempts) { s with governor }
  have hstart : Informs s { s with governor } := of_eq rfl rfl rfl
  refine Informs.trans ?_ (closeTask t.id.abstractId _)
  refine Informs.trans ?_ (release r (r.workspace.taskDir t.id) _)
  exact (hstart.trans hrecorded).trans (of_eq rfl rfl rfl)

theorem onTask (t : Task) (solution : Solution) (s : State) :
    Informs s (r.onTask t solution s) := by
  rcases onTask_eq_cases r t solution s with
    ⟨status, governor, _, heq⟩ | ⟨attempt, limits, governor, _, heq⟩
  · rw [heq]
    exact finishTask t status _ s governor
  · rw [heq]
    refine of_eq (queueRetry_told ..).1 ?_ ?_
    · rw [report_queueRetry]
      rfl
    · rw [report_queueRetry]
      rfl

theorem of_shift (shift : Shift s s') : Informs s s' := by
  obtain ⟨_, _, _, _, _, _, _, rfl⟩ := shift
  exact of_eq rfl rfl rfl

theorem of_move {completion : Option Completion} (move : Move r s completion s') :
    Informs s s' := by
  cases move with
  | @deal c rest shift live =>
    refine (of_shift shift).trans ?_
    cases c with
    | abstractTask t models => exact onAbstract t models rest
    | task t solution => exact onTask t solution rest
  | @drop item rest shift live =>
    refine (of_shift shift).trans ?_
    cases item with
    | abstractTask t => exact onAbstract t _ rest
    | task t => exact finishTask t .failed t.attempt rest rest.governor
  | finish now idle => exact (announce s.expectedTotal s).trans (of_eq rfl rfl rfl)
  | shift shift live => exact of_shift shift

end Informs

theorem start_informs (r : Run) (fragments : FragmentSet) :
    Informs r.fresh (r.start fragments) := by
  have hqueued : Informs r.fresh (r.queued fragments) := .of_eq rfl rfl rfl
  unfold Run.start
  dsimp only
  split
  · exact hqueued.trans (.announce _ _)
  · exact hqueued

/-! ### When the total is known -/

/-- The states agree in the numbers that the total depends on. -/
structure Level (s s' : State) : Prop where
  total : s'.report.total = s.report.total
  pending : s'.pendingAbstract = s.pendingAbstract
  expected : s'.expectedTotal = s.expectedTotal

namespace Level

variable {r : Run} {s s' s'' : State}

theorem refl (s : State) : Level s s := ⟨rfl, rfl, rfl⟩

theorem trans (h : Level s s') (h' : Level s' s'') : Level s s'' where
  total := h'.total.trans h.total
  pending := h'.pending.trans h.pending
  expected := h'.expected.trans h.expected

theorem of_shift (shift : Shift s s') : Level s s' := by
  obtain ⟨_, _, _, _, _, _, _, rfl⟩ := shift
  exact ⟨rfl, rfl, rfl⟩

theorem record (o : TaskOutcome) (s : State) : Level s (record o s) := by
  refine ⟨?_, rfl, rfl⟩
  show (s.report.record o).total = s.report.total
  unfold Report.record
  split <;> rfl

theorem release (r : Run) (dir : Path) (s : State) : Level s (r.release dir s) := by
  unfold Run.release
  split <;> exact ⟨rfl, rfl, rfl⟩

theorem closeTask (r : Run) (id : AbstractTaskId) (s : State) : Level s (r.closeTask id s) := by
  unfold Run.closeTask
  split
  · exact refl s
  · dsimp only
    split
    · have hreleased := release r (r.workspace.abstractDir id)
        { s with openTasks := s.openTasks.filter fun p => p.1 ≠ id }
      exact ⟨hreleased.total, hreleased.pending, hreleased.expected⟩
    · exact ⟨rfl, rfl, rfl⟩

theorem finishTask (t : Task) (status : FinalStatus) (attempts : Nat) (s : State)
    (governor : Governor) : Level s (r.finishTask t status attempts { s with governor }) := by
  have hrecorded := record (outcomeOf t status attempts) { s with governor }
  refine Level.trans ?_ (closeTask r t.id.abstractId _)
  refine Level.trans ?_ (release r (r.workspace.taskDir t.id) _)
  exact ⟨hrecorded.total, rfl, rfl⟩

theorem onTask (t : Task) (solution : Solution) (s : State) :
    Level s (r.onTask t solution s) := by
  rcases onTask_eq_cases r t solution s with
    ⟨status, governor, _, heq⟩ | ⟨attempt, limits, governor, _, heq⟩
  · rw [heq]
    exact finishTask t status _ s governor
  · rw [heq]
    unfold queueRetry
    split <;> exact ⟨rfl, rfl, rfl⟩

end Level

/-- A total that has been announced is right, and no abstract task is pending any more. -/
def Timely (s : State) : Prop :=
  ∀ n, s.report.total = some n → s.pendingAbstract = 0 ∧ n = s.expectedTotal

namespace Timely

variable {r : Run} {s s' : State}

theorem of_none (h : s.report.total = none) : Timely s := by
  intro n hn
  rw [h] at hn
  cases hn

theorem of_level (h : Timely s) (level : Level s s') : Timely s' := by
  intro n hn
  rw [level.total] at hn
  rw [level.pending, level.expected]
  exact h n hn

theorem announce (h : Timely s) (pending : s.pendingAbstract = 0) :
    Timely (announce s.expectedTotal s) := by
  unfold Run.announce
  cases htotal : s.report.total with
  | some n => exact h
  | none =>
    intro n hn
    exact ⟨pending, (Option.some.inj hn).symm⟩

theorem afterAbstract (h : Timely s) : Timely (afterAbstract s) := by
  unfold Run.afterAbstract
  by_cases hpending : s.pendingAbstract = 0
  · rw [if_pos hpending]
    exact h.announce hpending
  · rw [if_neg hpending]
    exact h

/-- While an abstract task is pending no total has been announced. -/
theorem total_eq_none (h : Timely s) (pending : s.pendingAbstract ≠ 0) : s.report.total = none := by
  cases htotal : s.report.total with
  | none => rfl
  | some n => exact absurd (h n htotal).1 pending

theorem onAbstract (t : AbstractTask) (models : Except String (List EnvModel))
    (none : s.report.total = none) : Timely (r.onAbstract t models s) := by
  cases hclass : Dict.find? r.classes t.id.classKey with
  | none =>
    rw [Run.onAbstract, hclass]
    exact of_none none
  | some c =>
    by_cases hmodels : modelsOf models = []
    · rw [onAbstract_of_nil r t s hclass hmodels]
      unfold failClass
      dsimp only
      have hrecorded := List.foldlRecOn c.identifiers
        (fun s q => record (outcomeWithoutModel t.id q) s)
        (Level.refl { s.withAbstract with expectedTotal := s.expectedTotal + c.size })
        fun s' h q _ => h.trans (Level.record (outcomeWithoutModel t.id q) s')
      have hreleased := hrecorded.trans (Level.release r (r.workspace.abstractDir t.id) _)
      exact (of_none (hreleased.total.trans none)).afterAbstract
    · rw [onAbstract_of_ne_nil r t s hclass hmodels]
      refine Timely.afterAbstract (of_none ?_)
      rw [foldl_queueTask]
      exact none

theorem of_move {total : Nat} {completion : Option Completion} (h : Timely s)
    (reckoned : Reckoned total s.live s) (move : Move r s completion s') : Timely s' := by
  have habstract : ∀ {t : AbstractTask} {rest : State}, Shift s rest →
      s.live = .abstractTask t ::ₘ rest.live → rest.report.total = none := by
    intro t rest shift live
    have hpending := reckoned.pending
    rw [live, abstractCount_cons_abstractTask] at hpending
    rw [(Level.of_shift shift).total]
    exact h.total_eq_none (by omega)
  cases move with
  | @deal c rest shift live =>
    cases c with
    | abstractTask t models => exact onAbstract t models (habstract shift live)
    | task t solution => exact h.of_level ((Level.of_shift shift).trans (.onTask t solution rest))
  | @drop item rest shift live =>
    cases item with
    | abstractTask t => exact onAbstract t _ (habstract shift live)
    | task t =>
      exact h.of_level ((Level.of_shift shift).trans (.finishTask t .failed _ rest rest.governor))
  | finish now idle =>
    have hpending := reckoned.pending
    rw [idle, abstractCount_zero] at hpending
    exact (h.announce hpending).of_level ⟨rfl, rfl, rfl⟩
  | shift shift live => exact h.of_level (.of_shift shift)

end Timely

/-! ### A whole run -/

section
variable {r : Run} {fragments : FragmentSet} {workers : Nat} {es : List Event} {y : System}
  (run : Trace r fragments workers es y) (wf : r.classes.WellFormed)
  (ordered : Dict.Ordered fragments) (distinct : ∀ c ∈ handled es, c.DistinctModels)
include run wf ordered distinct

theorem Trace.informs : Informs (r.start fragments) y.state :=
  run.keeps_moves (P := Informs (r.start fragments)) wf ordered distinct (.refl _)
    fun move h => h.trans (.of_move move)

/-- The ends are told as they are recorded, and so is the total. -/
theorem Trace.told : y.state.effects.filterMap Effect.told? = y.state.endings ∧
    y.state.effects.filterMap Effect.total? = y.state.report.total.toList := by
  obtain ⟨new, heffects, hendings, htotal⟩ :=
    (start_informs r fragments).trans (run.informs wf ordered distinct)
  rw [heffects, hendings, htotal]
  exact ⟨rfl, rfl⟩

theorem Trace.timely (multiple : r.config.singleModel = false) : Timely y.state := by
  have hstart : Timely (r.start fragments) := by
    unfold Run.start
    dsimp only
    rw [multiple]
    exact .of_none rfl
  have hboth := run.keeps_moves
    (P := fun s => Reckoned (r.abstractTasks fragments).length s.live s ∧ Timely s) wf ordered
    distinct ⟨start_reckoned r fragments, hstart⟩
    fun move h => ⟨h.1.of_move move, h.2.of_move h.1 move⟩
  exact hboth.2

end

theorem Trace.exists_total {r : Run} {fragments : FragmentSet} {workers : Nat} {es : List Event}
    {y : System} (run : Trace r fragments workers es y) (returned : y.phase = .returned) :
    ∃ n, y.state.report.total = some n := by
  obtain ⟨now, s, _, heq⟩ := run.exists_finish returned
  rw [heq, Run.finish]
  unfold announce
  cases htotal : s.report.total with
  | some n => exact ⟨n, htotal⟩
  | none => exact ⟨_, rfl⟩

/-- The number of requirements, over all fragments, as long as there is no second model. -/
theorem length_flatMap_places (classes : RequirementClasses) (fragments : FragmentSet)
    (models : AbstractTaskId → List String)
    (few : ∀ f ∈ fragments, ∀ p ∈ classes, (models ⟨f.1, p.1⟩).length ≤ 1) :
    (fragments.flatMap fun f => classes.flatMap fun p =>
        p.2.places ⟨f.1, p.1⟩ (models ⟨f.1, p.1⟩)).length =
      fragments.length * classes.totalRequirements := by
  have hclass : ∀ f ∈ fragments, ∀ p ∈ classes,
      (p.2.places ⟨f.1, p.1⟩ (models ⟨f.1, p.1⟩)).length = p.2.members.length := by
    intro f hf p hp
    have hfew := few f hf p hp
    cases hmodels : models ⟨f.1, p.1⟩ with
    | nil => simp [RequirementClass.places, RequirementClass.identifiers]
    | cons m ms =>
      rw [hmodels, List.length_cons] at hfew
      have hnil : ms = [] := List.eq_nil_of_length_eq_zero (by omega)
      simp [RequirementClass.places, RequirementClass.identifiers, hnil]
  have hfragment : ∀ f ∈ fragments, (classes.flatMap fun p =>
      p.2.places ⟨f.1, p.1⟩ (models ⟨f.1, p.1⟩)).length = classes.totalRequirements := by
    intro f hf
    rw [RequirementClasses.totalRequirements_eq_length, RequirementClasses.requirements,
      List.length_flatMap, List.length_flatMap, Dict.values, List.map_map]
    exact congrArg List.sum (List.map_congr_left (hclass f hf))
  rw [List.length_flatMap, List.map_congr_left hfragment, List.map_const',
    List.sum_replicate_nat]

structure Balanced (r : Run) (fragments : FragmentSet) (workers : Nat) (es : List Event)
    (y : System) (total : Nat) : Prop where
  once : y.state.effects.filterMap Effect.total? = [total]
  /-- At no point of the run is a total announced before all abstract tasks are dealt with. -/
  late : r.config.singleModel = false → ∀ before after y₁, es = before ++ after →
    Trace r fragments workers before y₁ → (∃ n, .announce n ∈ y₁.state.effects) →
      y₁.state.report.abstractTasks = (r.abstractTasks fragments).length ∧
        ∀ t, .abstractTask t ∉ y₁.state.live
  counted : r.config.singleModel = false →
    total = (y.state.effects.filterMap Effect.told?).length
  first : r.config.singleModel = true → y.state.effects.head? = some (.announce total)
  product : r.config.singleModel = true →
    total = fragments.length * r.classes.totalRequirements
  single : r.config.singleModel = true →
    (∀ f ∈ fragments, ∀ p ∈ r.classes, (yielded ⟨f.1, p.1⟩ (handled es)).length ≤ 1) →
      total = (y.state.effects.filterMap Effect.told?).length

theorem start_effects {r : Run} (single : r.config.singleModel = true) (fragments : FragmentSet) :
    (r.start fragments).effects =
      [.announce (fragments.length * r.classes.totalRequirements)] := by
  unfold Run.start
  dsimp only
  rw [if_pos single]
  rfl

section
variable {r : Run} {fragments : FragmentSet} {workers : Nat} {es : List Event} {y : System}
  (run : Trace r fragments workers es y) (wf : r.classes.WellFormed)
  (ordered : Dict.Ordered fragments)
include run wf ordered

theorem Trace.dealt_of_announced (distinct : ∀ c ∈ handled es, c.DistinctModels)
    (multiple : r.config.singleModel = false) {n : Nat} (h : .announce n ∈ y.state.effects) :
    y.state.report.abstractTasks = (r.abstractTasks fragments).length ∧
      ∀ t, .abstractTask t ∉ y.state.live := by
  have htotal : n ∈ y.state.effects.filterMap Effect.total? :=
    List.mem_filterMap.2 ⟨.announce n, h, rfl⟩
  rw [(run.told wf ordered distinct).2, Option.mem_toList] at htotal
  have hpending := (run.timely wf ordered distinct multiple n htotal).1
  have hreckoned := run.reckoned wf ordered distinct
  rw [hreckoned.pending] at hpending
  have hdealt := hreckoned.dealt
  refine ⟨by omega, fun t => notMem_of_abstractCount_eq_zero hpending t⟩

theorem Trace.balanced (answers : Answers Completion.DistinctModels es)
    (returned : y.phase = .returned) : ∃ total, Balanced r fragments workers es y total := by
  have hdistinct := run.distinct_handled answers
  obtain ⟨total, htotal⟩ := run.exists_total returned
  obtain ⟨htold, htotals⟩ := run.told wf ordered hdistinct
  rw [htotal, Option.toList_some] at htotals
  have hends : (y.state.effects.filterMap Effect.told?).length =
      y.state.report.outcomes.length := by
    rw [htold, State.endings, List.length_map]
  -- A single model is announced before anything else is told.
  have hfirst : r.config.singleModel = true → ∃ rest, y.state.effects = .announce total :: rest ∧
      total = fragments.length * r.classes.totalRequirements := by
    intro hsingle
    obtain ⟨rest, heffects, _, _⟩ := run.informs wf ordered hdistinct
    rw [start_effects hsingle, List.singleton_append] at heffects
    rw [heffects] at htotals
    have heq : fragments.length * r.classes.totalRequirements = total := (List.cons.inj htotals).1
    rw [heq] at heffects
    exact ⟨rest, heffects, heq.symm⟩
  refine ⟨total, htotals, ?_, ?_, ?_, ?_, ?_⟩
  · intro hmultiple before after y₁ hsplit hbefore hannounced
    obtain ⟨n, hn⟩ := hannounced
    have hanswers : Answers Completion.DistinctModels before := by
      intro c hc
      refine answers c ?_
      rw [hsplit]
      exact List.mem_append_left _ hc
    exact hbefore.dealt_of_announced wf ordered (hbefore.distinct_handled hanswers) hmultiple hn
  · intro hmultiple
    have hexpected := (run.reckoned wf ordered hdistinct).expected
    rw [run.live_of_returned returned, taskCount_zero] at hexpected
    obtain ⟨_, hdue⟩ := run.timely wf ordered hdistinct hmultiple total htotal
    omega
  · intro hsingle
    obtain ⟨rest, heffects, _⟩ := hfirst hsingle
    rw [heffects, List.head?_cons]
  · intro hsingle
    obtain ⟨_, _, hproduct⟩ := hfirst hsingle
    exact hproduct
  · intro hsingle hfew
    obtain ⟨_, _, hproduct⟩ := hfirst hsingle
    have hplaces := (run.complete wf ordered answers returned).outcomes.length_eq
    rw [List.length_map, length_flatMap_places _ _ (fun id => yielded id (handled es)) hfew] at hplaces
    omega

end

/-- However a run comes to its end, it announces one total, which is the number of the ends that
are told if any number of models is expected. -/
theorem balanced_of_returned {r : Run} {digest : List ConfiguredStage → String}
    {rs : List Requirement} (classes : r.classes = RequirementClasses.classifyWith digest rs)
    (distinct : (rs.map (·.identifier)).Nodup) {fragments : FragmentSet}
    (ordered : Dict.Ordered fragments) {workers : Nat} {es : List Event} {y : System}
    (run : Trace r fragments workers es y) (answers : Answers Completion.DistinctModels es)
    (returned : y.phase = .returned) : ∃ total, Balanced r fragments workers es y total := by
  have hwf := RequirementClasses.WellFormed.of_eq classes distinct
  exact run.balanced hwf ordered answers returned

/-- The abstract task of the first fragment finds two models.  Then the run is cancelled, and the
total is announced when the abstract task of the second fragment has been given up. -/
theorem balanced_of_cancelled :
    let r := { sample 1 true with
      config := { (sample 1 true).config with singleModel := false } }
    let fragments := [("f", ⟨"f.json"⟩), ("g", ⟨"g.json"⟩)]
    ∃ es y, Trace r fragments 1 es y ∧ y.phase = .returned ∧
      y.state.report.total = some 3 ∧
      ∃ total, Balanced r fragments 1 es y total := by
  intro r fragments
  let t : AbstractTask := ⟨⟨"f", "alloc"⟩, ⟨"f.json"⟩⟩
  let u : AbstractTask := ⟨⟨"g", "alloc"⟩, ⟨"g.json"⟩⟩
  let m : EnvModel := ⟨"m", ⟨"m"⟩, ⟨"m.json"⟩⟩
  let n : EnvModel := ⟨"n", ⟨"n"⟩, ⟨"n.json"⟩⟩
  let t₁ : Task := ⟨⟨"f", "alloc", "m", "alloc"⟩, 0, .standard, m.artifact⟩
  let t₂ : Task := ⟨⟨"f", "alloc", "n", "alloc"⟩, 0, .standard, n.artifact⟩
  have modelled := @Trace.turn r fragments 1 _ []
    (.abstractTask t (.ok [m, n])) _ _ .start rfl (by decide) ⟨1⟩
  have aborted := (modelled.step (.cancel rfl rfl)).step (.abort rfl)
  have dropped := aborted.step (@Step.drop _ _ (.abstractTask u) _ rfl rfl rfl rfl)
  have dropped₁ := dropped.step (@Step.drop _ _ (.task t₁) _ rfl rfl (by decide +kernel) rfl)
  have dropped₂ := dropped₁.step (@Step.drop _ _ (.task t₂) _ rfl rfl (by decide +kernel) rfl)
  have concluded := dropped₂.step
    (.conclude ⟨2⟩ rfl rfl (by decide +kernel) (by decide +kernel))
  refine ⟨_, _, concluded, rfl, by decide +kernel, ?_⟩
  refine @balanced_of_returned r fingerprint _ rfl (by decide) fragments ?_ _ _ _ concluded ?_ rfl
  · unfold Dict.Ordered
    decide
  · intro c hc
    simp at hc
    subst hc
    have hnames : ["m", "n"].Nodup := by decide
    exact hnames

end Run
end TaskGen
