import TaskGen.Proofs.Artifacts

/-!
What generations and preparations are put together from: their files, and the runners of their
stages.  A property that goes from two actions to the one after the other goes from these to the
whole.

Main statements: `Compositional.generate`, `Compositional.prepareWith`.
-/

namespace TaskGen

open Pipeline

variable {σ : Type}

/-- A property that all actions have that do nothing but read and write files or fail, and that two
actions one after the other have if both have it. -/
structure Compositional (P : ∀ {α : Type}, Act σ StageError α → Prop) : Prop where
  done : ∀ {α : Type} (result : α), P (Act.done result)
  fail : ∀ {α : Type} (e : StageError), (∀ s, e ≠ .noRunner s) → P (α := α) (Act.fail e)
  files : P Act.files
  read : ∀ p, P (io (Act.inspect fun files => files.read p))
  makeDirs : ∀ p, P (io (Act.makeDirs p))
  change : ∀ f, P (io (Act.change f))
  /-- What comes second has to have it only for a result that the first one may have. -/
  bind : ∀ {α β : Type} {act : Act σ StageError α} {next : α → Act σ StageError β}, P act →
    (∀ world result world', act world = (.done result, world') → P (next result)) →
      P (act >>= next)

namespace Compositional

variable {P : ∀ {α : Type}, Act σ StageError α → Prop} (h : Compositional P)
  {registry : Registry (Runner σ)}
include h

theorem andThen {α β : Type} {act : Act σ StageError α} {next : α → Act σ StageError β}
    (hact : P act) (hnext : ∀ result, P (next result)) : P (act >>= next) :=
  h.bind hact fun _ result _ _ => hnext result

theorem checkOutput (i : Invocation) : P (checkOutput i) := by
  apply h.andThen h.files
  intro files
  split
  · exact h.done ()
  · exact h.fail _ (by simp)

theorem executeStage {i : Invocation} {runner : Runner σ} (hrunner : registry i.stage = some runner)
    (hrun : P (runner i)) : P (executeStage registry i) := by
  rw [executeStage_of_some hrunner]
  apply h.andThen (h.makeDirs _)
  intro _
  apply h.andThen (h.change _)
  intro _
  exact h.andThen hrun fun _ => h.checkOutput i

theorem runChain {s : Setting} {chain : List (ConfiguredStage × String)} {input : Path}
    (stages : ∀ i ∈ invocations s chain input, P (Pipeline.executeStage registry i)) :
    P (runChain registry s chain input) := by
  induction chain generalizing input with
  | nil => exact h.done input
  | cons p chain ih =>
    apply h.andThen (stages _ List.mem_cons_self)
    intro _
    exact ih fun i hi => stages i (List.mem_cons_of_mem _ hi)

/-! ### The shared stages -/

theorem start (w : Workspace) (t : AbstractTask) (c : RequirementClass) :
    P (EnvModels.start w t c) := by
  apply h.andThen (h.makeDirs _)
  intro _
  apply h.andThen h.files
  intro files
  have hload : P ((Act.ofExcept (Fragment.load files t.descriptor)).mapError
      StageError.fragment) := by
    cases Fragment.load files t.descriptor with
    | ok fragment => exact h.done fragment
    | error e => exact h.fail (.fragment e) (by simp)
  apply h.andThen hload
  intro fragment
  exact h.andThen (h.change _) fun _ => h.done _

theorem readDescriptions (p : Path) : P (EnvModels.readDescriptions p) := by
  apply h.andThen (h.read p)
  intro bytes
  split
  · exact h.done _
  · exact h.fail _ (by simp)

theorem storeAll (w : Workspace) (id : AbstractTaskId) (models : List (String × Json.Value)) :
    P (EnvModels.storeAll w id models) := by
  induction models with
  | nil => exact h.done []
  | cons p models ih =>
    have hstore : P (EnvModels.store w id p.1 p.2) := by
      apply h.andThen (h.makeDirs _)
      intro _
      exact h.andThen (h.change _) fun _ => h.done _
    exact h.andThen hstore fun stored => h.andThen ih fun others => h.done _

theorem generate {w : Workspace} {t : AbstractTask} {c : RequirementClass}
    (stages : ∀ i ∈ EnvModels.calls w t.id c, P (Pipeline.executeStage registry i)) :
    P (EnvModels.generate registry w t c) := by
  apply h.bind (h.start w t c)
  intro world initial world' hstart
  rw [Worker.artifact_of_start hstart]
  split
  · exact h.done _
  · apply h.andThen (h.runChain stages)
    intro last
    apply h.andThen (h.readDescriptions last)
    intro found
    exact h.storeAll w t.id _

/-! ### The stages of attempts -/

theorem finish (last final : Path) : P (Worker.finish last final) := by
  unfold Worker.finish
  split
  · exact h.done final
  · exact h.andThen (h.change _) fun _ => h.done final

theorem prepareWith {k : Worker σ} {t : Task} {own : List ConfiguredStage}
    (stages : ∀ i ∈ Worker.planned k.workspace t own, P (Pipeline.executeStage k.registry i)) :
    P (k.prepareWith t own) := by
  rw [Worker.prepareWith_eq_finish]
  apply h.andThen (h.makeDirs _)
  intro _
  apply h.andThen (h.runChain stages)
  intro last
  exact h.finish last _

end Compositional
end TaskGen
