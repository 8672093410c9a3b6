import TaskGen.Proofs.Actions

/-!
What the look at the registry at the start says about the stages that are run later.  The stages in
front that members share, and those behind them, are together the pipeline of a member.  So there is
a runner for each of them, and only a runner itself can still say that there is none.

Main statements: `Registry.ensureCovers_eq_ok_iff`, `EnvModels.generates_of_covered`,
`Worker.prepares_of_covered`.
-/

namespace TaskGen

/-! ### The look at the start -/

namespace Registry

variable {Runner : Type} {registry : Registry Runner} {classes : RequirementClasses}

/-- The stage is one of a member of a class. -/
theorem contains_stage_iff {s : Stage} :
    (classes.requirements.flatMap fun q => q.pipeline.map (·.stage)).contains s = true ↔
      ∃ q ∈ classes.requirements, ∃ c ∈ q.pipeline, c.stage = s := by
  rw [List.contains_iff_mem, List.mem_flatMap]
  simp only [List.mem_map]

theorem uncovered?_eq_none_iff : registry.uncovered? classes = none ↔
    ∀ q ∈ classes.requirements, ∀ c ∈ q.pipeline, (registry c.stage).isSome = true := by
  unfold uncovered?
  rw [List.find?_eq_none]
  constructor
  · intro h q hq c hc
    have hused := contains_stage_iff.2 ⟨q, hq, c, hc, rfl⟩
    have hstage := h c.stage (Stage.mem_all c.stage)
    simp only [hused, Bool.true_and, Option.isNone_iff_eq_none] at hstage
    rw [← Option.ne_none_iff_isSome]
    exact hstage
  · intro h s _ hs
    obtain ⟨hused, hnone⟩ := Bool.and_eq_true_iff.1 hs
    obtain ⟨q, hq, c, hc, rfl⟩ := contains_stage_iff.1 hused
    have hsome := h q hq c hc
    rw [Option.isNone_iff_eq_none.1 hnone] at hsome
    cases hsome

theorem of_uncovered?_eq_some {s : Stage} (h : registry.uncovered? classes = some s) :
    registry s = none ∧ ∃ q ∈ classes.requirements, ∃ c ∈ q.pipeline, c.stage = s := by
  have hstage := @List.find?_some _ _ _ _ h
  obtain ⟨hused, hnone⟩ := Bool.and_eq_true_iff.1 hstage
  exact ⟨Option.isNone_iff_eq_none.1 hnone, contains_stage_iff.1 hused⟩

theorem get_eq_ok_iff {s : Stage} {runner : Runner} :
    registry.get s = .ok runner ↔ registry s = some runner := by
  rw [get]
  split <;> simp_all

/-- The look at the start passes exactly if every stage of every member has a runner. -/
theorem ensureCovers_eq_ok_iff : registry.ensureCovers classes = .ok () ↔
    ∀ q ∈ classes.requirements, ∀ c ∈ q.pipeline, ∃ runner, registry.get c.stage = .ok runner := by
  have hcovers : registry.ensureCovers classes = .ok () ↔ registry.uncovered? classes = none := by
    rw [ensureCovers]
    split <;> simp_all
  rw [hcovers, uncovered?_eq_none_iff]
  simp only [get_eq_ok_iff, Option.isSome_iff_exists]

/-- If it does not, it names a stage of a member that has no runner. -/
theorem of_ensureCovers_eq_error {e : StageError} (h : registry.ensureCovers classes = .error e) :
    ∃ q ∈ classes.requirements, ∃ c ∈ q.pipeline, registry c.stage = none ∧
      e = .noRunner c.stage := by
  unfold ensureCovers at h
  cases huncovered : registry.uncovered? classes with
  | none =>
    rw [huncovered] at h
    cases h
  | some s =>
    rw [huncovered] at h
    cases h
    obtain ⟨hnone, q, hq, c, hc, rfl⟩ := of_uncovered?_eq_some huncovered
    exact ⟨q, hq, c, hc, hnone, rfl⟩

end Registry

/-! ### How actions fail -/

section
variable {σ ε ε' α β : Type} {P : ε → Prop} {act : Act σ ε α}

def FailsWith (P : ε → Prop) (act : Act σ ε α) : Prop :=
  ∀ world e world', act world = (.failed e, world') → P e

theorem failsWith_done (result : α) : FailsWith P (Act.done result : Act σ ε α) := by
  intro world e world' h
  cases h

theorem failsWith_fail {error : ε} (h : P error) : FailsWith P (Act.fail error : Act σ ε α) := by
  intro world e world' hfail
  cases hfail
  exact h

theorem FailsWith.bind_of_done {next : α → Act σ ε β} (h : FailsWith P act)
    (hnext : ∀ world result world', act world = (.done result, world') →
      FailsWith P (next result)) : FailsWith P (act >>= next) := by
  intro world e world' hfail
  rw [Act.bind_eq_andThen, Act.andThen] at hfail
  cases hrun : act world with
  | mk outcome between =>
    rw [hrun] at hfail
    cases outcome with
    | done result => exact hnext world result between hrun between e world' hfail
    | failed error =>
      cases hfail
      exact h world _ _ hrun
    | panicked reason => cases hfail
    | hung => cases hfail

theorem FailsWith.bind {next : α → Act σ ε β} (h : FailsWith P act)
    (hnext : ∀ result, FailsWith P (next result)) : FailsWith P (act >>= next) :=
  h.bind_of_done fun _ result _ _ => hnext result

theorem FailsWith.mapError {Q : ε' → Prop} {f : ε → ε'} (h : FailsWith P act)
    (hf : ∀ e, P e → Q (f e)) : FailsWith Q (act.mapError f) := by
  intro world e world' hfail
  unfold Act.mapError at hfail
  split at hfail <;> cases hfail
  next error hrun => exact hf error (h world error _ hrun)

/-- Whatever the action says, it is said in other words that have the property. -/
theorem failsWith_mapError {f : ε' → ε} (h : ∀ e, P (f e)) (act : Act σ ε' α) :
    FailsWith P (act.mapError f) :=
  FailsWith.mapError (P := fun _ => True) (fun _ _ _ _ => trivial) fun e _ => h e

end

namespace Pipeline

variable {σ α : Type} {registry : Registry (Runner σ)} {plan : List Invocation}

/-- If the error says that a runner is missing, one of the runners of the plan has said so. -/
def Heard (registry : Registry (Runner σ)) (plan : List Invocation) (e : StageError) : Prop :=
  ∀ s, e = .noRunner s → ∃ i ∈ plan, ∃ runner, registry.get i.stage = .ok runner ∧
    ∃ world world', runner i world = (.failed (.noRunner s), world')

theorem heard_of_ne {e : StageError} (h : ∀ s, e ≠ .noRunner s) : Heard registry plan e :=
  fun s hs => (h s hs).elim

theorem failsWith_io (a : Act σ FileError α) : FailsWith (Heard registry plan) (io a) := by
  apply failsWith_mapError
  intro _
  apply heard_of_ne
  simp

def Covered (registry : Registry (Runner σ)) (plan : List Invocation) : Prop :=
  ∀ i ∈ plan, ∃ runner, registry.get i.stage = .ok runner

theorem compositional_heard (registry : Registry (Runner σ)) (plan : List Invocation) :
    Compositional fun (act : Act σ StageError _) => FailsWith (Heard registry plan) act where
  done result := failsWith_done result
  fail e h := failsWith_fail (heard_of_ne h)
  files := by
    intro world e world' hfail
    cases hfail
  read p := failsWith_io _
  makeDirs p := failsWith_io _
  change f := failsWith_io _
  bind hact hnext := hact.bind_of_done hnext

theorem failsWith_executeStage {i : Invocation} (hi : i ∈ plan) (covered : Covered registry plan) :
    FailsWith (Heard registry plan) (executeStage registry i) := by
  obtain ⟨runner, hrunner⟩ := covered i hi
  apply (compositional_heard registry plan).executeStage (Registry.get_eq_ok_iff.1 hrunner)
  -- Whatever the runner says is said by the runner.
  intro world e world' hfail s hs
  rw [hs] at hfail
  exact ⟨i, hi, runner, hrunner, world, world', hfail⟩

/-- The stages of a chain are those that its invocations are for. -/
theorem exists_of_mem_invocations {s : Setting} {chain : List (ConfiguredStage × String)}
    {input : Path} {i : Invocation} (h : i ∈ invocations s chain input) :
    ∃ p ∈ chain, i.stage = p.1.stage := by
  have hstages := congrArg (List.map Prod.fst) (linked_invocations s chain input).stages
  rw [List.map_map, List.map_map] at hstages
  have hmem : i.stage ∈ chain.map fun p => p.1.stage := by
    rw [show (chain.map fun p => p.1.stage) = _ from hstages.symm]
    exact List.mem_map_of_mem h
  obtain ⟨p, hp, heq⟩ := List.mem_map.1 hmem
  exact ⟨p, hp, heq.symm⟩

end Pipeline

open Pipeline

variable {σ : Type}

/-! ### The shared stages -/

namespace EnvModels

structure Generates (registry : Registry (Runner σ)) (w : Workspace) (t : AbstractTask)
    (c : RequirementClass) : Prop where
  /-- No other stages are run. -/
  only : RunsOnly (fun registry : Registry (Runner σ) => generate registry w t c)
    (calls w t.id c)
  covered : Covered registry (calls w t.id c)
  failures : FailsWith (Heard registry (calls w t.id c)) (generate registry w t c)

theorem generates_of_covered {registry : Registry (Runner σ)} {c : RequirementClass}
    (h : ∀ s ∈ c.pilot.pipeline, ∃ runner, registry.get s.stage = .ok runner) (w : Workspace)
    (t : AbstractTask) : Generates registry w t c := by
  have hcovered : Covered registry (calls w t.id c) := by
    intro i hi
    obtain ⟨p, hp, hstage⟩ := exists_of_mem_invocations hi
    rw [hstage]
    exact h p.1 (List.takeWhile_subset _ (mem_outputs hp).1)
  refine ⟨runsOnly_generate w t c, hcovered, ?_⟩
  apply (compositional_heard registry _).generate
  intro i hi
  exact failsWith_executeStage hi hcovered

end EnvModels

/-! ### The stages of attempts -/

namespace Worker

theorem plan_subset (w : Workspace) (t : Task) (own : List ConfiguredStage) :
    (plan w t own).1 ⊆ own := by
  unfold plan
  split
  · exact List.Subset.refl own
  · exact List.drop_subset _ _

structure Prepares (k : Worker σ) (t : Task) (q : Requirement) : Prop where
  only : RunsOnly (fun registry => ({ k with registry } : Worker σ).prepareWith t q.ownStages)
    (planned k.workspace t q.ownStages)
  covered : Covered k.registry (planned k.workspace t q.ownStages)
  failures : FailsWith (Heard k.registry (planned k.workspace t q.ownStages))
    (k.prepareWith t q.ownStages)

theorem prepares_of_covered {k : Worker σ} {q : Requirement}
    (h : ∀ s ∈ q.pipeline, ∃ runner, k.registry.get s.stage = .ok runner) (t : Task) :
    Prepares k t q := by
  have hcovered : Covered k.registry (planned k.workspace t q.ownStages) := by
    intro i hi
    obtain ⟨p, hp, hstage⟩ := exists_of_mem_invocations hi
    obtain ⟨c, hc, rfl⟩ := List.mem_map.1 hp
    rw [hstage]
    exact h c (List.dropWhile_subset _ (plan_subset k.workspace t q.ownStages hc))
  refine ⟨runsOnly_prepareWith k t _, hcovered, ?_⟩
  apply (compositional_heard k.registry _).prepareWith
  intro i hi
  exact failsWith_executeStage hi hcovered

theorem prepare_eq {k : Worker σ} {t : Task} {q : Requirement}
    (found : k.requirement? t.id = some q) :
    k.prepare t = (k.prepareWith t q.ownStages).mapError .stage := by
  unfold prepare
  rw [found]

/-- The requirement was found, and a runner that is missed was missed by another runner. -/
def Supplied (registry : Registry (Runner σ)) (plan : List Invocation) : WorkerError → Prop
  | .stage e => Heard registry plan e
  | .session _ => True
  | .unknownRequirement _ _ => False

theorem failsWith_solve {k : Worker σ} {t : Task} {q : Requirement}
    (found : k.requirement? t.id = some q) (prepares : Prepares k t q) :
    FailsWith (Supplied k.registry (planned k.workspace t q.ownStages)) (k.solve t) := by
  have hsession : ∀ {α : Type} (act : Act σ SessionError α),
      FailsWith (Supplied k.registry (planned k.workspace t q.ownStages))
        (act.mapError WorkerError.session) := by
    intro α act
    exact failsWith_mapError (fun _ => trivial) act
  have hprepare : FailsWith (Supplied k.registry (planned k.workspace t q.ownStages))
      ((k.prepareWith t q.ownStages).mapError .stage) :=
    prepares.failures.mapError fun _ h => h
  unfold solve
  rw [prepare_eq found]
  apply hprepare.bind
  intro final
  exact (hsession _).bind fun id => hsession _

end Worker
end TaskGen
