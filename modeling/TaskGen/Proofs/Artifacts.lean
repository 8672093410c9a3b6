import TaskGen.Proofs.Catalog.Selection
import TaskGen.Proofs.Preparation

/-!
Which files the stages of one chain read and write.  A result is named by the kind of its stage
alone, so two stages of one kind share one file, and the second one of two neighbours writes over
what it reads.  Nothing keeps a template from having a kind of stage twice.

Main statement: `Catalog.freshness_of_select`.
-/

namespace TaskGen

namespace Pipeline

open Workspace

variable {σ ε α β : Type}

/-! ### The invocations that matter -/

/-- The action runs no other stages than these: what else can be run makes no difference. -/
def RunsOnly (act : Registry (Runner σ) → Act σ ε α) (plan : List Invocation) : Prop :=
  ∀ registry registry', (∀ i ∈ plan, (registry i.stage).map (· i) = (registry' i.stage).map (· i)) →
    act registry = act registry'

theorem RunsOnly.const (act : Act σ ε α) (plan : List Invocation) :
    RunsOnly (fun _ => act) plan := fun _ _ _ => rfl

theorem RunsOnly.bind {act : Registry (Runner σ) → Act σ ε α} {next : α → Act σ ε β}
    {plan : List Invocation} (h : RunsOnly act plan) : RunsOnly (fun r => act r >>= next) plan := by
  intro registry registry' agree
  show act registry >>= next = act registry' >>= next
  rw [h registry registry' agree]

/-- What is run behind an action may depend on its result. -/
theorem RunsOnly.after {act : Act σ ε α} {next : Registry (Runner σ) → α → Act σ ε β}
    {plan : List Invocation}
    (h : ∀ world result world', act world = (.done result, world') →
      RunsOnly (fun r => next r result) plan) : RunsOnly (fun r => act >>= next r) plan := by
  intro registry registry' agree
  funext world
  show (act >>= next registry) world = (act >>= next registry') world
  rw [Act.bind_eq_andThen, Act.bind_eq_andThen, Act.andThen, Act.andThen]
  cases hrun : act world with
  | mk outcome world' =>
    cases outcome with
    | done result => exact congrFun (h world result world' hrun registry registry' agree) world'
    | failed e => rfl
    | panicked reason => rfl
    | hung => rfl

/-- What is done with a runner that was found. -/
theorem executeStage_of_some {registry : Registry (Runner σ)} {i : Invocation} {runner : Runner σ}
    (h : registry i.stage = some runner) : executeStage registry i = (do
      io (Act.makeDirs i.workDir)
      writeJson i.confPath i.conf
      runner i
      checkOutput i) := by
  unfold executeStage Registry.get
  rw [h]
  rfl

theorem runsOnly_executeStage (i : Invocation) :
    RunsOnly (fun registry : Registry (Runner σ) => executeStage registry i) [i] := by
  intro registry registry' agree
  have hrunner := agree i (List.mem_singleton_self i)
  show executeStage registry i = executeStage registry' i
  cases hr : registry i.stage with
  | none =>
    rw [hr, Option.map_none] at hrunner
    unfold executeStage Registry.get
    rw [hr, Option.map_eq_none_iff.mp hrunner.symm]
  | some runner =>
    rw [hr, Option.map_some] at hrunner
    obtain ⟨runner', hr', hsame⟩ := Option.map_eq_some_iff.mp hrunner.symm
    rw [executeStage_of_some hr, executeStage_of_some hr', hsame]

theorem runsOnly_runChain (s : Setting) (chain : List (ConfiguredStage × String)) (input : Path) :
    RunsOnly (fun registry : Registry (Runner σ) => runChain registry s chain input)
      (invocations s chain input) := by
  induction chain generalizing input with
  | nil => exact .const _ _
  | cons p chain ih =>
    obtain ⟨c, output⟩ := p
    intro registry registry' agree
    have hfirst : executeStage registry _ = executeStage registry' _ :=
      runsOnly_executeStage (s.invocation c input output) registry registry'
        fun i hi => agree i (List.mem_singleton.mp hi ▸ List.mem_cons_self)
    have hrest : runChain registry s chain _ = runChain registry' s chain _ :=
      ih (s.dir.join output) registry registry' fun i hi => agree i (List.mem_cons_of_mem _ hi)
    exact congrArg₂ (fun first rest => first >>= fun _ => rest) hfirst hrest

/-! ### Results of one chain -/

def OutputsDistinct (plan : List Invocation) : Prop := (plan.map fun i => i.output.steps).Nodup

def InputsKept (plan : List Invocation) : Prop := ∀ i ∈ plan, i.output.steps ≠ i.input.steps

theorem steps_join_name (dir : Path) {name : String} (h : IsName name) :
    (dir.join name).steps = dir.steps ++ [name] := Path.steps_join dir h.toIsStep h.ne_dot

section
variable {s : Setting} {chain : List (ConfiguredStage × String)}

/-- The results of a chain are distinct exactly if their names are. -/
theorem outputsDistinct_iff (isName : ∀ p ∈ chain, IsName p.2) (input : Path) :
    OutputsDistinct (invocations s chain input) ↔ (chain.map (·.2)).Nodup := by
  have houtputs : (invocations s chain input).map (fun i => i.output.steps) =
      (chain.map (·.2)).map fun name => s.dir.steps ++ [name] := by
    have hlinked := congrArg (List.map fun q => Path.steps q.2.2)
      (linked_invocations s chain input).stages
    rw [List.map_map, List.map_map] at hlinked
    rw [List.map_map]
    refine hlinked.trans (List.map_congr_left fun p hp => ?_)
    exact steps_join_name s.dir (isName p hp)
  rw [OutputsDistinct, houtputs]
  refine List.nodup_map_iff fun a b hab => ?_
  exact (List.cons.inj (List.append_cancel_left hab)).1

/-- Every stage but the first reads the result of its neighbour. -/
theorem inputsKept_iff (isName : ∀ p ∈ chain, IsName p.2) (input : Path) :
    InputsKept (invocations s chain input) ↔
      (∀ p ∈ chain.head?, s.dir.steps ++ [p.2] ≠ input.steps) ∧
        (chain.map (·.2)).IsChain (· ≠ ·) := by
  induction chain generalizing input with
  | nil => simp [InputsKept, invocations]
  | cons p chain ih =>
    obtain ⟨c, output⟩ := p
    have hname : IsName output := isName (c, output) List.mem_cons_self
    have hrest := ih (fun q hq => isName q (List.mem_cons_of_mem _ hq)) (s.dir.join output)
    have hneighbours : (∀ q ∈ chain.head?, s.dir.steps ++ [q.2] ≠ (s.dir.join output).steps) ↔
        ∀ name ∈ (chain.map (·.2)).head?, output ≠ name := by
      rw [steps_join_name s.dir hname, List.head?_map, Option.forall_mem_map]
      refine forall₂_congr fun q _ => ?_
      rw [ne_eq, List.append_cancel_left_eq, List.cons.injEq, ne_comm]
      simp
    rw [hneighbours, ← List.isChain_cons] at hrest
    show (∀ i ∈ s.invocation c input output :: invocations s chain (s.dir.join output), _) ↔ _
    rw [List.forall_mem_cons, List.map_cons]
    refine and_congr ?_ hrest
    show (s.dir.join output).steps ≠ input.steps ↔ _
    rw [steps_join_name s.dir hname]
    simp

end

theorem stageOutput_injective : Function.Injective stageOutput := by
  intro s t h
  cases s <;> cases t <;> first | rfl | (revert h; decide)

end Pipeline

open Pipeline Workspace

variable {σ : Type}

namespace EnvModels

/-- What the shared stages of a class are told. -/
def calls (w : Workspace) (a : AbstractTaskId) (c : RequirementClass) : List Invocation :=
  invocations ⟨w.abstractDir a, none, none⟩ (outputs c.sharedStages)
    ((w.abstractDir a).join initialTask)

theorem runsOnly_generate (w : Workspace) (t : AbstractTask) (c : RequirementClass) :
    RunsOnly (fun registry : Registry (Runner σ) => generate registry w t c)
      (calls w t.id c) := by
  refine RunsOnly.after fun world initial world' hstart => ?_
  rw [Worker.artifact_of_start hstart]
  cases c.sharedStages.isEmpty with
  | true => exact .const _ _
  | false => exact (runsOnly_runChain _ _ _).bind

/-- All results but the last are named by the kinds of their stages. -/
theorem names_outputs {cs : List ConfiguredStage} (h : cs ≠ []) :
    (outputs cs).map (·.2) = (cs.dropLast.map (·.stage)).map stageOutput ++ [abstractTasks] := by
  induction cs with
  | nil => exact absurd rfl h
  | cons c cs ih =>
    cases cs with
    | nil => rfl
    | cons c' cs => exact congrArg (stageOutput c.stage :: ·) (ih (List.cons_ne_nil _ _))

section
variable (w : Workspace) (a : AbstractTaskId) (c : RequirementClass)

theorem models_notMem (kinds : List Stage) : abstractTasks ∉ kinds.map stageOutput := by
  intro h
  obtain ⟨s, _, hs⟩ := List.mem_map.mp h
  revert hs
  cases s <;> decide

theorem outputsDistinct_calls_iff : OutputsDistinct (calls w a c) ↔
    (c.sharedStages.dropLast.map (·.stage)).Nodup := by
  rw [calls, outputsDistinct_iff fun p hp => (mem_outputs hp).2.isName]
  by_cases hnil : c.sharedStages = []
  · simp [hnil, outputs]
  · rw [names_outputs hnil, List.nodup_append_comm, List.singleton_append, List.nodup_cons,
      and_iff_right (models_notMem _), List.nodup_map_iff stageOutput_injective]

theorem inputsKept_calls_iff : InputsKept (calls w a c) ↔
    (c.sharedStages.dropLast.map (·.stage)).IsChain (· ≠ ·) := by
  have hfirst : ∀ p ∈ (outputs c.sharedStages).head?,
      (w.abstractDir a).steps ++ [p.2] ≠ ((w.abstractDir a).join initialTask).steps := by
    intro p hp heq
    rw [steps_join_name _ isName_initialTask] at heq
    exact (mem_outputs (List.mem_of_mem_head? hp)).2.ne_initialTask
      (List.cons.inj (List.append_cancel_left heq)).1
  rw [calls, inputsKept_iff fun p hp => (mem_outputs hp).2.isName, and_iff_right hfirst]
  by_cases hnil : c.sharedStages = []
  · simp [hnil, outputs]
  · have hlast : ∀ name ∈ ((c.sharedStages.dropLast.map (·.stage)).map stageOutput).getLast?,
        ∀ models ∈ [abstractTasks].head?, name ≠ models := by
      rintro name hname _ ⟨⟩ rfl
      exact models_notMem _ (List.mem_of_mem_getLast? hname)
    rw [names_outputs hnil, List.isChain_append, List.isChain_map,
      and_iff_left ⟨List.isChain_singleton _, hlast⟩]
    simp only [stageOutput_injective.ne_iff]

end

end EnvModels

namespace Worker

def planned (w : Workspace) (t : Task) (own : List ConfiguredStage) : List Invocation :=
  calls w t (plan w t own).1 (plan w t own).2

theorem runsOnly_prepareWith (k : Worker σ) (t : Task) (own : List ConfiguredStage) :
    RunsOnly (fun registry => ({ k with registry } : Worker σ).prepareWith t own)
      (planned k.workspace t own) := by
  simp only [prepareWith_eq_finish]
  exact RunsOnly.after fun _ _ _ _ => (runsOnly_runChain _ _ _).bind

def IsArtifact (w : Workspace) (artifact : Path) : Prop :=
  ∃ (σ : Type) (registry : Registry (Runner σ)) (t : AbstractTask) (c : RequirementClass)
    (world world' : World σ) (models : List EnvModel),
    EnvModels.generate registry w t c world = (.done models, world') ∧
      artifact ∈ models.map (·.artifact)

theorem IsArtifact.exists_dir {w : Workspace} {artifact : Path} (h : IsArtifact w artifact) :
    ∃ dir : Path, artifact = dir.join initialTask := by
  obtain ⟨_, _, t, _, _, _, models, hgenerate, hartifact⟩ := h
  obtain ⟨m, hm, rfl⟩ := List.mem_map.mp hartifact
  exact (artifact_of_generate hgenerate hm).elim (fun h => ⟨_, h⟩) fun h => ⟨_, h⟩

section
variable (w : Workspace) (t : Task) (own : List ConfiguredStage)

theorem map_snd_named (stages : List ConfiguredStage) :
    (named stages).map (·.2) = (stages.map (·.stage)).map stageOutput := by
  simp [named]

theorem planned_eq_first (first : t.attempt = 0) : planned w t own = calls w t own t.artifact := by
  rw [planned, plan, if_pos first]

theorem planned_eq_again (again : t.attempt ≠ 0) :
    planned w t own = calls w t own.getLast?.toList
      ((w.attemptDir t.id (t.attempt - 1)).join finalTask) := by
  rw [planned, plan, if_neg again, drop_eq_getLast?]

theorem outputsDistinct_calls_iff (stages : List ConfiguredStage) (input : Path) :
    OutputsDistinct (calls w t stages input) ↔ (stages.map (·.stage)).Nodup := by
  rw [calls, outputsDistinct_iff fun p hp => (isOutput_of_mem_named hp).isName, map_snd_named,
    List.nodup_map_iff stageOutput_injective]

/-- The first stage of an attempt never writes over its input if that has another name than the
results of stages. -/
theorem inputsKept_calls_iff {name : String} (isName : IsName name)
    (other : ∀ output, IsOutput output → output ≠ name) (stages : List ConfiguredStage)
    (dir : Path) : InputsKept (calls w t stages (dir.join name)) ↔
      (stages.map (·.stage)).IsChain (· ≠ ·) := by
  have hfirst : ∀ p ∈ (named stages).head?,
      (setting w t).dir.steps ++ [p.2] ≠ (dir.join name).steps := by
    intro p hp heq
    rw [steps_join_name _ isName] at heq
    exact other p.2 (isOutput_of_mem_named (List.mem_of_mem_head? hp))
      (List.cons.inj (List.append_inj' heq rfl).2).1
  rw [calls, inputsKept_iff fun p hp => (isOutput_of_mem_named hp).isName, and_iff_right hfirst,
    map_snd_named, List.isChain_map]
  simp only [stageOutput_injective.ne_iff]

theorem inputsKept_first_iff (first : t.attempt = 0) (artifact : IsArtifact w t.artifact) :
    InputsKept (planned w t own) ↔ (own.map (·.stage)).IsChain (· ≠ ·) := by
  obtain ⟨dir, hdir⟩ := artifact.exists_dir
  rw [planned_eq_first w t own first, hdir]
  exact inputsKept_calls_iff w t isName_initialTask (fun _ => IsOutput.ne_initialTask) own dir

/-- A later attempt runs one stage at most, on the final document of the attempt before it. -/
theorem fresh_again (again : t.attempt ≠ 0) :
    OutputsDistinct (planned w t own) ∧ InputsKept (planned w t own) := by
  rw [planned_eq_again w t own again, outputsDistinct_calls_iff,
    inputsKept_calls_iff w t IsTaskName.final.isName fun _ => ne_final_of_isOutput]
  cases own.getLast? with
  | none => exact ⟨List.nodup_nil, .nil⟩
  | some c => exact ⟨List.nodup_singleton _, List.isChain_singleton _⟩

end

end Worker

namespace Catalog

open Worker

/-- Where the stages of a requirement leave their results, from the kinds of the stages of its
template alone. -/
structure Freshness (kinds : List Stage) (r : Requirement) (w : Workspace) : Prop where
  /-- An attempt runs no other stages than those that are planned for it, and a class none but its
  shared ones. -/
  attempts : ∀ {σ : Type} (k : Worker σ) (t : Task), k.workspace = w →
    RunsOnly (fun registry => ({ k with registry } : Worker σ).prepareWith t r.ownStages)
      (planned w t r.ownStages)
  classes : ∀ {σ : Type} (t : AbstractTask) (c : RequirementClass), c.pilot = r →
    RunsOnly (fun registry : Registry (Runner σ) => EnvModels.generate registry w t c)
      (EnvModels.calls w t.id c)
  /-- In a first attempt a kind of stage must not come twice. -/
  first : ∀ t, t.attempt = 0 → (OutputsDistinct (planned w t r.ownStages) ↔
    (kinds.dropWhile (·.isShared)).Nodup)
  firstKept : ∀ t, t.attempt = 0 → IsArtifact w t.artifact →
    (InputsKept (planned w t r.ownStages) ↔ (kinds.dropWhile (·.isShared)).IsChain (· ≠ ·))
  again : ∀ t, t.attempt ≠ 0 →
    OutputsDistinct (planned w t r.ownStages) ∧ InputsKept (planned w t r.ownStages)
  /-- The last shared stage has a name of its own for its result. -/
  shared : ∀ a c, c.pilot = r → (OutputsDistinct (EnvModels.calls w a c) ↔
    (kinds.takeWhile (·.isShared)).dropLast.Nodup)
  sharedKept : ∀ a c, c.pilot = r → (InputsKept (EnvModels.calls w a c) ↔
    (kinds.takeWhile (·.isShared)).dropLast.IsChain (· ≠ ·))
  /-- Nothing is written twice where the template has no kind of stage twice. -/
  fresh : kinds.Nodup →
    (∀ t, IsArtifact w t.artifact →
      OutputsDistinct (planned w t r.ownStages) ∧ InputsKept (planned w t r.ownStages)) ∧
    ∀ a c, c.pilot = r →
      OutputsDistinct (EnvModels.calls w a c) ∧ InputsKept (EnvModels.calls w a c)

theorem freshness_of_kinds {kinds : List Stage} {r : Requirement}
    (same : r.pipeline.map (·.stage) = kinds) (w : Workspace) : Freshness kinds r w := by
  subst same
  have hown : (r.pipeline.map (·.stage)).dropWhile (·.isShared) = r.ownStages.map (·.stage) := by
    rw [List.dropWhile_map]
    rfl
  have hshared : (r.pipeline.map (·.stage)).takeWhile (·.isShared) =
      r.sharedStages.map (·.stage) := by
    rw [List.takeWhile_map]
    rfl
  have hfirst : ∀ t, t.attempt = 0 → (OutputsDistinct (planned w t r.ownStages) ↔
      ((r.pipeline.map (·.stage)).dropWhile (·.isShared)).Nodup) := fun t first => by
    rw [hown, planned_eq_first w t _ first, Worker.outputsDistinct_calls_iff]
  have hkept : ∀ t, t.attempt = 0 → IsArtifact w t.artifact →
      (InputsKept (planned w t r.ownStages) ↔
        ((r.pipeline.map (·.stage)).dropWhile (·.isShared)).IsChain (· ≠ ·)) :=
    fun t first artifact => by rw [hown, inputsKept_first_iff w t _ first artifact]
  have hclass : ∀ a c, c.pilot = r → (OutputsDistinct (EnvModels.calls w a c) ↔
      ((r.pipeline.map (·.stage)).takeWhile (·.isShared)).dropLast.Nodup) := fun a c pilot => by
    rw [hshared, ← List.map_dropLast, EnvModels.outputsDistinct_calls_iff, ← pilot]
    rfl
  have hclassKept : ∀ a c, c.pilot = r → (InputsKept (EnvModels.calls w a c) ↔
      ((r.pipeline.map (·.stage)).takeWhile (·.isShared)).dropLast.IsChain (· ≠ ·)) :=
    fun a c pilot => by
      rw [hshared, ← List.map_dropLast, EnvModels.inputsKept_calls_iff, ← pilot]
      rfl
  refine ⟨fun k t hw => hw ▸ runsOnly_prepareWith k t _,
    fun t c _ => EnvModels.runsOnly_generate w t c, hfirst, hkept,
    fun t again => fresh_again w t _ again, hclass, hclassKept, fun nodup => ⟨fun t artifact => ?_,
      fun a c pilot => ?_⟩⟩
  · by_cases first : t.attempt = 0
    · have hnodup := (List.dropWhile_sublist (·.isShared)).nodup nodup
      exact ⟨(hfirst t first).mpr hnodup, (hkept t first artifact).mpr hnodup.isChain⟩
    · exact fresh_again w t _ first
  · have hsublist := (List.dropLast_sublist _).trans
      (List.takeWhile_sublist (·.isShared) (l := r.pipeline.map (·.stage)))
    have hnodup := hsublist.nodup nodup
    exact ⟨(hclass a c pilot).mpr hnodup, (hclassKept a c pilot).mpr hnodup.isChain⟩

/-- What holds for every requirement that is selected from a catalog: the kinds of its stages are
those of its template, and they decide which stages write over results. -/
theorem freshness_of_select {text : String} {c : Catalog} (parsed : Catalog.parse text = .ok c)
    {patterns : List String} {E : Pattern.Engine} {rs : List Requirement}
    (selected : c.select patterns E = .ok rs)
    {r : Requirement} (hr : r ∈ rs) (w : Workspace) :
    ∃ leaf stages, Dict.find? c.leaves r.identifier = some leaf ∧
      Dict.find? c.templates leaf.template = some stages ∧
      Freshness (stages.map (·.stage)) r w := by
  have hselection := selection_of_select (loaded_of_parse parsed) selected
  obtain ⟨leaf, stages, hresolved⟩ := hselection.resolved r hr
  exact ⟨leaf, stages, hresolved.described, hresolved.settled,
    freshness_of_kinds hresolved.kinds w⟩

def oneTemplate (kinds : List Stage) : String :=
  let plugins := kinds.map fun kind => Json.Value.object [("name", .string kind.name)]
  let requirement := .object [("identifier", .string "x"), ("template", .string "t")]
  (Json.Value.object [("requirement specifications", .object [("children", .array [requirement])]),
    ("templates", .object [("t", .object [("plugins", .array plugins)])])]).compact

def fourKinds : List Stage := [.environmentModel, .requirementModel, .weaver, .taskPreparation]

set_option maxRecDepth 100000 in
theorem freshness_of_four_kinds : ∃ c rs r, Catalog.parse (oneTemplate fourKinds) = .ok c ∧
    c.select ["x"] = .ok rs ∧ r ∈ rs ∧ r.pipeline.map (·.stage) = fourKinds ∧
    ∃ leaf stages, Dict.find? c.leaves r.identifier = some leaf ∧
      Dict.find? c.templates leaf.template = some stages ∧
      Freshness (stages.map (·.stage)) r ⟨⟨"."⟩⟩ := by
  have hkinds : ((Catalog.parse (oneTemplate fourKinds)).bind (·.select ["x"])).toOption.map
      (List.map fun r => r.pipeline.map (·.stage)) = some [fourKinds] := by
    decide +kernel
  obtain ⟨rs, hrs, hkinds⟩ := exists_of_toOption_map hkinds
  obtain ⟨c, hparse, hselect⟩ := exists_of_bind_ok hrs
  obtain ⟨r, rfl, hr⟩ := List.map_eq_singleton_iff.mp hkinds
  exact ⟨c, [r], r, hparse, hselect, List.mem_singleton_self r, hr,
    freshness_of_select hparse hselect (List.mem_singleton_self r) ⟨⟨"."⟩⟩⟩

/-- A kind of stage may come twice.  Both write the same file, and the second one reads it. -/
theorem doubled_stage_overwrites :
    ∃ c rs r, Catalog.parse (oneTemplate [.requirementModel, .requirementModel]) = .ok c ∧
      c.select ["x"] = .ok rs ∧ r ∈ rs ∧
      ¬ OutputsDistinct (planned ⟨⟨"/w"⟩⟩ (firstTask "x") r.ownStages) ∧
      ¬ InputsKept (planned ⟨⟨"/w"⟩⟩ (firstTask "x") r.ownStages) := by
  have hkinds : ((Catalog.parse (oneTemplate [.requirementModel, .requirementModel])).bind
      (·.select ["x"])).toOption.map (List.map fun r => r.ownStages.map (·.stage)) =
        some [[.requirementModel, .requirementModel]] := by
    decide +kernel
  obtain ⟨rs, hrs, hkinds⟩ := exists_of_toOption_map hkinds
  obtain ⟨c, hparse, hselect⟩ := exists_of_bind_ok hrs
  obtain ⟨r, rfl, hown⟩ := List.map_eq_singleton_iff.mp hkinds
  refine ⟨c, [r], r, hparse, hselect, List.mem_singleton_self r, ?_, ?_⟩
  · rw [planned_eq_first _ _ _ rfl, Worker.outputsDistinct_calls_iff, hown]
    decide
  · have hartifact : (firstTask "x").artifact =
        ((sampleWorker .null).workspace.modelDir sampleId "m").join initialTask := rfl
    rw [planned_eq_first _ _ _ rfl, hartifact,
      Worker.inputsKept_calls_iff _ _ isName_initialTask fun _ => IsOutput.ne_initialTask, hown]
    decide

end Catalog
end TaskGen
