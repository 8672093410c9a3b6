import TaskGen.Config.Load
import TaskGen.Pipeline.Command
import TaskGen.Proofs.Artifacts

/-!
What the arguments of a program mean.  A program gets paths as they are written, and it runs in the
working directory of its stage.  Below an absolute root they mean to it what they mean to the
caller.  Below a relative one it looks for them below its own directory, and a program that does
what it is told leaves nothing where the caller looks for the result.

Main statement: `PluginCommand.meanings`.
-/

namespace TaskGen

namespace FileTree

variable {t : FileTree} {p : Path}

theorem walk_inside (t : FileTree) (dir loc : Location) (names : List String) :
    (t.inside dir).walk loc names = t.walk loc names := by
  induction names generalizing loc with
  | nil => rfl
  | cons name names ih =>
    rw [walk, walk]
    simp only [ih]
    rfl

/-- An absolute path is found alike from everywhere. -/
theorem locate_inside (absolute : p.isAbsolute = true) (dir : Location) :
    (t.inside dir).locate p = t.locate p := by
  simp only [locate, absolute, if_true, walk_inside]

theorem prefix_follow (loc : Location) {names : List String} (down : ".." ∉ names) :
    loc <+: follow loc names := by
  induction names generalizing loc with
  | nil => exact List.prefix_rfl
  | cons name names ih =>
    obtain ⟨hname, hrest⟩ := not_or.mp (mt List.mem_cons.mpr down)
    rw [follow]
    split
    · exact ih loc hrest
    · rw [if_neg (Ne.symm hname)]
      exact (List.prefix_append _ _).trans (ih _ hrest)

/-- A relative path that never leads up stays below the place it is seen from. -/
theorem prefix_placeOf (relative : p.isAbsolute = false) (down : ".." ∉ p.parts)
    (here : Location) : here <+: placeOf here p := by
  rw [placeOf_eq_follow, relative]
  exact prefix_follow here fun h => down (List.mem_filter.mp h).1

end FileTree

open FileTree

namespace Pipeline

open Workspace

def NamedBelow (root p : Path) : Prop :=
  ∃ ns, ns ≠ [] ∧ (∀ q ∈ ns, IsName q) ∧ p = root.descend ns

theorem NamedBelow.join {root p : Path} (h : NamedBelow root p) {name : String}
    (isName : IsName name) : NamedBelow root (p.join name) := by
  obtain ⟨ns, _, hnames, rfl⟩ := h
  refine ⟨ns ++ [name], by simp, isName_append hnames isName, ?_⟩
  rw [Path.descend, Path.descend, List.foldl_concat]

theorem NamedBelow.isAbsolute {root p : Path} (h : NamedBelow root p) :
    p.isAbsolute = root.isAbsolute := by
  obtain ⟨ns, _, hnames, rfl⟩ := h
  exact Path.isAbsolute_descend hnames root

theorem NamedBelow.exists_placeOf {root p : Path} (h : NamedBelow root p) :
    ∃ ns, ns ≠ [] ∧ ∀ here, placeOf here p = placeOf here root ++ ns := by
  obtain ⟨ns, hne, hnames, rfl⟩ := h
  exact ⟨ns, hne, fun here => placeOf_descend hnames here root⟩

structure BuiltBelow (root : Path) (i : Invocation) : Prop where
  sited : ∃ s p, Sited s p i ∧ IsOutput p.2 ∧ NamedBelow root s.dir
  input : NamedBelow root i.input

theorem builtBelow_of_mem {root : Path} {s : Setting} {chain : List (ConfiguredStage × String)}
    (isOutput : ∀ p ∈ chain, IsOutput p.2) (dir : NamedBelow root s.dir) {input : Path}
    (below : NamedBelow root input) {i : Invocation} (h : i ∈ invocations s chain input) :
    BuiltBelow root i := by
  induction chain generalizing input with
  | nil => cases h
  | cons p chain ih =>
    obtain ⟨c, output⟩ := p
    have houtput : IsOutput output := isOutput (c, output) List.mem_cons_self
    rcases List.mem_cons.mp h with rfl | hrest
    · exact ⟨⟨s, (c, output), ⟨rfl, rfl, rfl⟩, houtput, dir⟩, below⟩
    · exact ih (fun q hq => isOutput q (List.mem_cons_of_mem _ hq)) (dir.join houtput.isName) hrest

/-- The invocations that are built for the shared stages of a class, or for an attempt at a task
that starts from a model. -/
def Built (w : Workspace) (i : Invocation) : Prop :=
  (∃ a c, i ∈ EnvModels.calls w a c) ∨
    ∃ t own, Worker.IsArtifact w t.artifact ∧ i ∈ Worker.planned w t own

section
variable {w : Workspace}

theorem namedBelow_abstractDir (a : AbstractTaskId) : NamedBelow w.root (w.abstractDir a) :=
  ⟨abstractNames a, by simp [abstractNames], isName_abstractNames a, rfl⟩

theorem namedBelow_attemptDir (id : TaskId) (attempt : Nat) :
    NamedBelow w.root (w.attemptDir id attempt) := by
  refine ⟨attemptNames id attempt, fun hnil => ?_, isName_attemptNames id attempt,
    w.attemptDir_eq id attempt⟩
  have hlength := length_attemptNames id attempt
  rw [hnil, List.length_nil] at hlength
  split at hlength
  · cases hlength
  · cases hlength

theorem namedBelow_artifact {artifact : Path} (h : Worker.IsArtifact w artifact) :
    NamedBelow w.root artifact := by
  obtain ⟨_, _, t, _, _, _, models, hgenerate, hartifact⟩ := h
  obtain ⟨m, hm, rfl⟩ := List.mem_map.mp hartifact
  rcases Worker.artifact_of_generate hgenerate hm with heq | heq
  · rw [heq]
    exact ((namedBelow_abstractDir t.id).join (isName_escape m.id)).join isName_initialTask
  · rw [heq]
    exact (namedBelow_abstractDir t.id).join isName_initialTask

theorem builtBelow_of_built {i : Invocation} (h : Built w i) : BuiltBelow w.root i := by
  rcases h with ⟨a, c, hi⟩ | ⟨t, own, hartifact, hi⟩
  · exact builtBelow_of_mem (fun _ hp => (EnvModels.mem_outputs hp).2)
      (namedBelow_abstractDir a) ((namedBelow_abstractDir a).join isName_initialTask) hi
  · have hinput : NamedBelow w.root (Worker.plan w t own).2 := by
      unfold Worker.plan
      split
      · exact namedBelow_artifact hartifact
      · exact (namedBelow_attemptDir t.id _).join Workspace.IsTaskName.final.isName
    exact builtBelow_of_mem (fun _ => Worker.isOutput_of_mem_named)
      (namedBelow_attemptDir t.id t.attempt) hinput hi

end

section
variable {root : Path} {i : Invocation} (built : BuiltBelow root i)
include built

theorem BuiltBelow.workDir : NamedBelow root i.workDir := by
  obtain ⟨s, p, hsited, _, hdir⟩ := built.sited
  rw [hsited.workDir]
  exact hdir.join (isName_dirName i.stage)

theorem BuiltBelow.confPath : NamedBelow root i.confPath :=
  built.workDir.join (isName_stageConf i.stage)

theorem BuiltBelow.output : NamedBelow root i.output := by
  obtain ⟨s, p, hsited, houtput, hdir⟩ := built.sited
  rw [hsited.output]
  exact hdir.join houtput.isName

/-- The result is not in the working directory of the stage. -/
theorem BuiltBelow.output_apart (here : Location) :
    ¬ placeOf here i.workDir <+: placeOf here i.output := by
  obtain ⟨s, p, hsited, houtput, hdir⟩ := built.sited
  rw [hsited.workDir, hsited.output, placeOf_join_name _ _ (isName_dirName i.stage),
    placeOf_join_name _ _ houtput.isName, List.prefix_append_right_inj]
  intro h
  obtain ⟨rest, hrest⟩ := h
  exact houtput.ne_dirName i.stage (List.cons.inj hrest).1.symm

end

end Pipeline

namespace PluginCommand

open Pipeline

variable {σ : Type} {programs : Programs} {c : PluginCommand} {i : Invocation}

def paths (i : Invocation) : List Path := [i.confPath, i.input, i.output]

/-- The arguments behind those of the configuration are the paths as they are written, and the
program runs in the working directory. -/
theorem of_prepare? {files : FileTree} {program : Program} {dir : Location}
    (h : c.prepare? programs i files = some (program, dir)) :
    programs c.command = some program ∧ dir = placeOf files.here i.workDir ∧
      c.arguments i = c.args ++ (paths i).map Path.text := by
  simp only [prepare?, bind, Option.bind_eq_some_iff] at h
  obtain ⟨program', hprogram, dir', hdir, h⟩ := h
  split at h
  · cases h
  · cases h
    cases hlocate : files.locate i.workDir with
    | error e =>
      rw [hlocate] at hdir
      cases hdir
    | ok place =>
      rw [hlocate] at hdir
      cases hdir
      exact ⟨hprogram, locate_eq_placeOf hlocate, rfl⟩

theorem namedBelow_of_mem_paths {root : Path} (built : BuiltBelow root i) {p : Path}
    (h : p ∈ paths i) : NamedBelow root p := by
  rcases List.mem_cons.mp h with rfl | h
  · exact built.confPath
  · rcases List.mem_cons.mp h with rfl | h
    · exact built.input
    · exact List.mem_singleton.mp h ▸ built.output

/-- What is seen from two directories below a root is the same exactly if the root is. -/
theorem placeOf_eq_iff {root p : Path} (below : NamedBelow root p) (here dir : Location) :
    placeOf dir p = placeOf here p ↔ placeOf dir root = placeOf here root := by
  obtain ⟨ns, _, hplace⟩ := below.exists_placeOf
  rw [hplace, hplace, List.append_cancel_right_eq]

/-- A relative root that never leads up is another one in each working directory. -/
theorem root_moved {root : Path} (relative : root.isAbsolute = false) (down : ".." ∉ root.parts)
    (work : NamedBelow root i.workDir) (here : Location) :
    placeOf (placeOf here i.workDir) root ≠ placeOf here root := by
  intro heq
  obtain ⟨ns, hne, hplace⟩ := work.exists_placeOf
  have hprefix := prefix_placeOf relative down (placeOf here i.workDir)
  rw [heq, hplace] at hprefix
  have hlength := hprefix.length_le
  rw [List.length_append] at hlength
  exact hne (List.eq_nil_of_length_eq_zero (by omega))

theorem prefix_placeOf_of_below {root p : Path} (relative : root.isAbsolute = false)
    (down : ".." ∉ root.parts) (below : NamedBelow root p) (dir : Location) :
    dir <+: placeOf dir p := by
  obtain ⟨ns, _, hplace⟩ := below.exists_placeOf
  rw [hplace]
  exact (prefix_placeOf relative down dir).trans (List.prefix_append _ _)

/-! ### Programs that do what they are told -/

/-- A program that changes nothing but what is in its own directory and at its last argument. -/
def Obedient (program : Program) : Prop :=
  ∀ args output (files : FileTree), args.getLast? = some output →
    Touches (fun loc => files.here <+: loc ∨ loc = placeOf files.here ⟨output⟩) files
      (program args files).2

theorem of_runner_done {u v : World σ} (h : c.runner programs i u = (.done (), v)) :
    ∃ program dir, c.prepare? programs i u.files = some (program, dir) ∧
      v.files = (program (c.arguments i) (u.files.inside dir)).2.inside u.files.here := by
  unfold runner at h
  rw [bind_of_done (a := Act.files) rfl] at h
  cases hprepare : c.prepare? programs i u.files with
  | none =>
    rw [hprepare] at h
    cases h
  | some start =>
    obtain ⟨program, dir⟩ := start
    rw [hprepare] at h
    refine ⟨program, dir, rfl, ?_⟩
    dsimp only at h
    rw [bind_of_done (a := Act.setFiles _) rfl] at h
    split at h
    · cases h
      rfl
    · cases h

/-- Below a relative root nothing comes to be where the caller looks for the result. -/
theorem undone_of_obedient {root : Path} (relative : root.isAbsolute = false)
    (down : ".." ∉ root.parts) (built : BuiltBelow root i) (registry : Registry PluginCommand)
    (obedient : ∀ name program, programs name = some program → Obedient program)
    (world : World σ) (fresh : Fresh i world.files) :
    (executeStage (Registry.start programs registry) i world).1.isDone = false := by
  rw [Bool.eq_false_iff]
  intro hdone
  obtain ⟨_, hrun⟩ := eq_of_isDone hdone
  obtain ⟨u, ⟨r, made, hregistered, hprepared, hreport⟩, hhas⟩ := executeStage_done_iff.mp hrun
  obtain ⟨c, _, rfl⟩ := Option.map_eq_some_iff.mp hregistered
  obtain ⟨program, dir, hprepare, hfiles⟩ := of_runner_done hreport
  obtain ⟨hprogram, hdir, harguments⟩ := of_prepare? hprepare
  have hhere : u.files.here = world.files.here := hprepared.confined.here
  rw [hhere] at hdir
  have htouches := obedient c.command program hprogram (c.arguments i) i.output.text
    (u.files.inside dir) (by simp [harguments, paths])
  -- The output as the program sees it is below its own directory, too.
  have hseen : dir <+: placeOf dir i.output :=
    prefix_placeOf_of_below relative down built.output dir
  have hapart : ¬ (dir <+: placeOf world.files.here i.output ∨
      placeOf world.files.here i.output = placeOf dir i.output) := by
    have hwork := built.output_apart world.files.here
    rw [← hdir] at hwork
    rintro (hbelow | heq)
    · exact hwork hbelow
    · exact hwork (heq ▸ hseen)
  have hnone : u.files.get? (placeOf world.files.here i.output) = none := by
    rw [hprepared.confined.get?_eq fresh.conf fresh.way]
    exact fresh.none
  have hmissing : (executeStage (Registry.start programs registry) i world).2.files.has
      i.output = false := by
    refine has_of_none ?_
    rw [hfiles]
    show (program (c.arguments i) (u.files.inside dir)).2.get? (placeOf u.files.here i.output) = _
    rw [hhere, htouches.same _ hapart]
    exact hnone
  rw [hmissing] at hhas
  cases hhas

structure Meaning (w : Workspace) (i : Invocation) : Prop where
  /-- The program gets the paths as they are written, and runs in the working directory. -/
  called : ∀ {c : PluginCommand} {programs : Programs} {files : FileTree} {program : Program}
    {dir : Location}, c.prepare? programs i files = some (program, dir) →
      dir = placeOf files.here i.workDir ∧ c.arguments i = c.args ++ (paths i).map Path.text
  /-- They mean to it what they mean to the caller exactly if the root does. -/
  same_iff : ∀ here, ∀ p ∈ paths i, (placeOf (placeOf here i.workDir) p = placeOf here p ↔
    placeOf (placeOf here i.workDir) w.root = placeOf here w.root)
  absolute : w.root.isAbsolute = true → ∀ (files : FileTree) (dir : Location), ∀ p ∈ paths i,
    (files.inside dir).locate p = files.locate p
  /-- Below a relative root that never leads up they mean something in its own directory. -/
  relative : w.root.isAbsolute = false → ".." ∉ w.root.parts → ∀ here, ∀ p ∈ paths i,
    placeOf here i.workDir <+: placeOf (placeOf here i.workDir) p ∧
      placeOf (placeOf here i.workDir) p ≠ placeOf here p
  /-- There no stage is done by a program that does what it is told. -/
  undone : w.root.isAbsolute = false → ".." ∉ w.root.parts → ∀ {σ : Type} (programs : Programs)
    (registry : Registry PluginCommand) (world : World σ),
    (∀ name program, programs name = some program → Obedient program) → Fresh i world.files →
      (executeStage (Registry.start programs registry) i world).1.isDone = false

structure Meanings (w : Workspace) : Prop where
  /-- No other invocations are built than those of the two plans. -/
  generate : ∀ {σ : Type} (t : AbstractTask) (c : RequirementClass),
    RunsOnly (fun registry : Registry (Runner σ) => EnvModels.generate registry w t c)
      (EnvModels.calls w t.id c)
  prepare : ∀ {σ : Type} (k : Worker σ) (t : Task) (own : List ConfiguredStage), k.workspace = w →
    RunsOnly (fun registry => ({ k with registry } : Worker σ).prepareWith t own)
      (Worker.planned w t own)
  meaning : ∀ i, Built w i → Meaning w i

/-- Whether the programs of a run see the files that are meant depends on the main directory
alone: below an absolute one they do, and below the default one none of them does. -/
theorem meanings (w : Workspace) : Meanings w where
  generate t c := EnvModels.runsOnly_generate w t c
  prepare k t own hw := hw ▸ Worker.runsOnly_prepareWith k t own
  meaning i built := by
    have hbuilt := builtBelow_of_built built
    refine ⟨fun h => (of_prepare? h).2, fun here p hp => ?_, fun absolute files dir p hp => ?_,
      fun relative down here p hp => ⟨?_, fun heq => ?_⟩, fun relative down _ _ registry world =>
        fun obedient fresh => undone_of_obedient relative down hbuilt registry obedient world fresh⟩
    · exact placeOf_eq_iff (namedBelow_of_mem_paths hbuilt hp) here _
    · exact locate_inside ((namedBelow_of_mem_paths hbuilt hp).isAbsolute.trans absolute) dir
    · exact prefix_placeOf_of_below relative down (namedBelow_of_mem_paths hbuilt hp) _
    · exact root_moved relative down hbuilt.workDir here
        ((placeOf_eq_iff (namedBelow_of_mem_paths hbuilt hp) here _).mp heq)

/-! ### Samples -/

def copying : Program := fun args files =>
  match args with
  | [_, input, output] =>
    match files.copy ⟨input⟩ ⟨output⟩ with
    | .ok left => (0, left)
    | .error _ => (1, files)
  | _ => (2, files)

/-- Generation by this program, by somebody in the directory `/w`. -/
def generatedBy (root : Path) : Outcome StageError (List EnvModel) × World Unit :=
  EnvModels.generate (Registry.start (fun _ => some copying) fun _ => some ⟨"copy", []⟩) ⟨root⟩
    ⟨Worker.sampleId, ⟨"/f.json"⟩⟩ Worker.sampleClass
    (Worker.inWorld (Worker.sampleFiles.inside ["w"]))

theorem meanings_of_default : ∃ i ∈ EnvModels.calls ⟨⟨"."⟩⟩ Worker.sampleId Worker.sampleClass,
    Meaning ⟨⟨"."⟩⟩ i ∧ ∀ here, ∀ p ∈ paths i,
      placeOf here i.workDir <+: placeOf (placeOf here i.workDir) p := by
  have hne : EnvModels.calls ⟨⟨"."⟩⟩ Worker.sampleId Worker.sampleClass ≠ [] := by decide +kernel
  obtain ⟨i, hi⟩ := List.exists_mem_of_ne_nil _ hne
  have hmeaning := (meanings ⟨⟨"."⟩⟩).meaning i (.inl ⟨_, _, hi⟩)
  exact ⟨i, hi, hmeaning, fun here p hp =>
    (hmeaning.relative (by decide +kernel) (by decide +kernel) here p hp).1⟩

/-- Where no main directory is given it is the one that the run is started in, by a relative path.
The program then copies nothing, where it does below the absolute path of the same directory. -/
theorem default_root_unseen :
    (Config.parse (fun _ => none)
        "specifications_base = \"b\"\nrequirement_specifications = [\"a\"]").toOption.map
      (·.mainDirectory) = some ⟨"."⟩ ∧
    (∃ i ∈ EnvModels.calls ⟨⟨"."⟩⟩ Worker.sampleId Worker.sampleClass, ∀ p ∈ paths i,
      placeOf (placeOf ["w"] i.workDir) p ≠ placeOf ["w"] p) ∧
    (generatedBy ⟨"/w"⟩).1.isDone = true ∧ (generatedBy ⟨"."⟩).1.isDone = false := by
  decide +kernel

end PluginCommand
end TaskGen
