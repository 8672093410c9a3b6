import TaskGen.Proofs.Coincidences
import TaskGen.Proofs.Pipeline.Composition

/-!
What an attempt at a task makes.  The first one composes all stages of the requirement, from the
artifact of the model on.  A later one runs the last stage on what the attempt before it has made,
with the new limits.  An attempt that fails leaves no final document and is not submitted, and
whatever becomes of it, files are written only below the directory of the task.

Main statement: `preparing`.
-/

namespace TaskGen

open FileTree

namespace Worker

open Pipeline Workspace

variable {σ : Type} {k : Worker σ} {t : Task} {world : World σ}
  {notes : σ → List (Invocation × Bool)} {f : Stage → ByteArray → ByteArray → Option ByteArray}

/-! ### Places -/

def Below (top loc : Location) : Prop := ∃ name rest, loc = top ++ name :: rest

theorem below_of_made {dir loc : Location} {p : ConfiguredStage × String} (h : Made dir p loc) :
    Below dir loc := by
  rcases h with rfl | ⟨rest, rfl⟩
  · exact ⟨p.2, [], rfl⟩
  · exact ⟨p.1.stage.dirName, rest, by simp⟩

theorem placeOf_taskDir (here : Location) (w : Workspace) (id : TaskId) :
    placeOf here (w.taskDir id) = placeOf here w.root ++ taskNames id := by
  rw [taskDir_eq, placeOf_descend (isName_taskNames id)]

theorem placeOf_attemptDir (here : Location) (w : Workspace) (id : TaskId) (attempt : Nat) :
    placeOf here (w.attemptDir id attempt) = placeOf here w.root ++ attemptNames id attempt := by
  rw [attemptDir_eq, placeOf_descend (isName_attemptNames id attempt)]

/-- What is below an attempt is below its task. -/
theorem Below.of_attempt {here loc : Location} {w : Workspace} {id : TaskId} {attempt : Nat}
    (h : Below (placeOf here (w.attemptDir id attempt)) loc) :
    Below (placeOf here (w.taskDir id)) loc := by
  obtain ⟨name, rest, rfl⟩ := h
  rw [placeOf_attemptDir, placeOf_taskDir, attemptNames]
  split
  · exact ⟨name, rest, rfl⟩
  · exact ⟨"attempt-" ++ toString attempt, name :: rest, by simp⟩

theorem onWay_attemptDir {here loc : Location} {w : Workspace} {id : TaskId} {attempt : Nat}
    (h : OnWay here (w.attemptDir id attempt) loc) :
    OnWay here (w.taskDir id) loc ∨ Below (placeOf here (w.taskDir id)) loc := by
  unfold attemptDir at h
  split at h
  · exact .inl h
  · exact (onWay_join (isName_attempt attempt) h).imp_right fun hloc => ⟨_, [], hloc⟩

theorem text_attemptDir_ne_empty (w : Workspace) (id : TaskId) (attempt : Nat) :
    (w.attemptDir id attempt).text.isEmpty = false := by
  unfold attemptDir
  split
  · exact Path.text_join_ne_empty _ (isStep_escape _)
  · exact Path.text_join_ne_empty _ (isName_attempt attempt).toIsStep

/-- The final document of an attempt is not in the directory of the next one. -/
theorem not_below_next (here : Location) (w : Workspace) (id : TaskId) (last : Nat) :
    ¬ Below (placeOf here (w.attemptDir id (last + 1)))
      (placeOf here ((w.attemptDir id last).join finalTask)) := by
  rintro ⟨name, rest, heq⟩
  rw [placeOf_join_name _ _ IsTaskName.final.isName, placeOf_attemptDir, placeOf_attemptDir,
    List.append_assoc, List.append_assoc, List.append_cancel_left_eq] at heq
  have hlength := congrArg List.length heq
  simp only [List.length_append, length_attemptNames, Nat.succ_ne_zero, if_false,
    List.length_cons, List.length_nil] at hlength
  have hlast : last ≠ 0 := by
    intro hzero
    rw [if_pos hzero] at hlength
    omega
  rw [if_neg hlast] at hlength
  have hsame : attemptNames id last = attemptNames id (last + 1) :=
    (List.append_inj heq (by simp [length_attemptNames, hlast])).1
  exact absurd (attemptNames_inj hsame).2 (by omega)

/-! ### The invocations of an attempt -/

def named (stages : List ConfiguredStage) : List (ConfiguredStage × String) :=
  stages.map fun c => (c, stageOutput c.stage)

theorem isOutput_of_mem_named {stages : List ConfiguredStage} {p : ConfiguredStage × String}
    (h : p ∈ named stages) : IsOutput p.2 := by
  obtain ⟨c, _, rfl⟩ := List.mem_map.1 h
  exact .stage c.stage

def setting (w : Workspace) (t : Task) : Setting where
  dir := w.attemptDir t.id t.attempt
  requirement := some t.id.requirement
  limits := some t.limits

def calls (w : Workspace) (t : Task) (stages : List ConfiguredStage) (input : Path) :
    List Invocation :=
  invocations (setting w t) (named stages) input

/-- Every stage gets to know the limits of the attempt. -/
theorem limits_of_mem_calls {w : Workspace} {stages : List ConfiguredStage} {input : Path}
    {i : Invocation} (h : i ∈ calls w t stages input) : ∃ members, i.conf = .object members ∧
      Dict.find? members "override resource limits" = some t.limits.toJson := by
  have hlimits : i.limits = some t.limits := ((linked_invocations _ _ _).setting i h).2
  rw [Invocation.conf, hlimits]
  exact ⟨_, rfl, Dict.find?_insert_self _ _ _⟩

/-- Only the last stage is left of a pipeline, if it has any. -/
theorem drop_eq_getLast? (own : List ConfiguredStage) :
    own.drop (own.length - 1) = own.getLast?.toList := by
  by_cases hnil : own = []
  · rw [hnil]
    rfl
  · rw [List.drop_length_sub_one hnil, List.getLast?_eq_getLast_of_ne_nil hnil]
    rfl

/-! ### The final document -/

def finish (last final : Path) : Act σ StageError Path :=
  if last.same final then pure final
  else do
    io (Act.change fun files => files.copy last final)
    pure final

theorem prepareWith_eq_finish (k : Worker σ) (t : Task) (own : List ConfiguredStage) :
    k.prepareWith t own = (do
      io (Act.makeDirs (setting k.workspace t).dir)
      let last ← runChain k.registry (setting k.workspace t) (named (plan k.workspace t own).1)
        (plan k.workspace t own).2
      finish last ((setting k.workspace t).dir.join finalTask)) := rfl

theorem finish_cases (last final : Path) (world : World σ) :
    finish last final world = (.failed .io, world) ∨
      ∃ files, finish last final world = (.done final, withFiles world files) ∧
        (last.same final = true ∧ files = world.files ∨
          world.files.copy last final = .ok files) := by
  unfold finish
  by_cases hsame : last.same final = true
  · rw [if_pos hsame]
    exact .inr ⟨world.files, rfl, .inl ⟨hsame, rfl⟩⟩
  · rw [if_neg hsame]
    cases hcopy : world.files.copy last final with
    | error e =>
      have hfailed : io (Act.change fun files => files.copy last final) world = _ :=
        io_change_failed hcopy
      exact .inl (bind_of_failed hfailed _)
    | ok files =>
      have hdone : io (Act.change fun files => files.copy last final) world = _ :=
        io_change_done hcopy
      refine .inr ⟨files, ?_, .inr rfl⟩
      rw [bind_of_done hdone]
      rfl

section
variable {s : Setting} {stages : List ConfiguredStage} {input : Path} {dir : Location}

/-- No stage writes the final document. -/
theorem not_made_final : ¬ ∃ p ∈ named stages, Made dir p (dir ++ [finalTask]) := by
  rintro ⟨p, hp, hfinal⟩
  rcases (made_iff _ _).1 hfinal with ⟨hname, _⟩ | hname
  · exact ne_final_of_isOutput (isOutput_of_mem_named hp) hname.symm
  · revert hname
    cases p.1.stage <;> decide

theorem below_of_mem_made (loc : Location) (h : ∃ p ∈ named stages, Made dir p loc) :
    Below dir loc := by
  obtain ⟨p, _, hloc⟩ := h
  exact below_of_made hloc

/-- The last result is not where the final document is going to be. -/
theorem ne_final_of_chainRun {ending : Outcome StageError Path × World σ} {last : Path}
    (run : ChainRun notes f s dir (named stages) input world ending)
    (directory : DirectoryAt world.files s.dir dir) (done : ending.1 = .done last)
    (apart : ¬ Below dir (placeOf world.files.here input)) :
    placeOf world.files.here last ≠ dir ++ [finalTask] := by
  intro heq
  rcases run.last last done with ⟨rfl, _⟩ | ⟨p, hp, rfl⟩
  · exact apart ⟨finalTask, [], heq⟩
  · have houtput := isOutput_of_mem_named hp
    rw [placeOf_join_name _ _ houtput.isName, ← directory.placeOf] at heq
    exact ne_final_of_isOutput houtput (List.cons.inj (List.append_cancel_left heq)).1

end

/-! ### One attempt -/

structure AttemptRun (notes : σ → List (Invocation × Bool))
    (f : Stage → ByteArray → ByteArray → Option ByteArray) (s : Setting)
    (stages : List ConfiguredStage) (input : Path) (world : World σ)
    (ending : Outcome StageError Path × World σ) : Prop where
  confined : Confined (Below (placeOf world.files.here s.dir)) (OnWay world.files.here s.dir)
    world.files ending.2.files
  final : ∀ final, ending.1 = .done final → final = s.dir.join finalTask
  called : ending.1.isDone = true → notes ending.2.others =
    notes world.others ++ (invocations s (named stages) input).map (·, true)
  composed : ending.1.isDone = true →
    ¬ Below (placeOf world.files.here s.dir) (placeOf world.files.here input) →
    ∃ content out, world.files.Holds input content ∧
      compose f (invocations s (named stages) input) content = some out ∧
      ending.2.files.read (s.dir.join finalTask) = .ok out
  stopped : ending.1.isDone = false →
    Stopped (notes world.others) (notes ending.2.others) (invocations s (named stages) input)
  unfinished : ending.1.isDone = false → ∀ bytes,
    ending.2.files.Holds (s.dir.join finalTask) bytes ↔
      world.files.Holds (s.dir.join finalTask) bytes

section
variable {s : Setting} {stages : List ConfiguredStage} {input : Path} {made : FileTree}

/-- An attempt that comes to its end before the final document is written. -/
theorem attemptRun_of_undone {ending : Outcome StageError Path × World σ}
    (undone : ending.1.isDone = false)
    (confined : Confined
      (fun loc => ∃ p ∈ named stages, Made (placeOf world.files.here s.dir) p loc)
      (OnWay world.files.here s.dir) world.files ending.2.files)
    (stopped : Stopped (notes world.others) (notes ending.2.others)
      (invocations s (named stages) input)) :
    AttemptRun notes f s stages input world ending := by
  refine ⟨confined.mono below_of_mem_made fun _ => .inr,
    fun final h => (ne_done undone final h).elim,
    fun h => (Bool.false_ne_true (undone.symm.trans h)).elim,
    fun h => (Bool.false_ne_true (undone.symm.trans h)).elim, fun _ => stopped,
    fun _ bytes => ?_⟩
  rw [Holds, Holds, confined.here, placeOf_join_name _ _ IsTaskName.final.isName]
  exact confined.file_iff not_made_final bytes

section
variable (make : world.files.makeDirs s.dir = (made, .ok ()))
  (directory : DirectoryAt made s.dir (placeOf world.files.here s.dir))
include make directory

/-- What is copied in the end is what the chain has made of the input. -/
theorem exists_composed {ending : Outcome StageError Path × World σ} {last : Path}
    (run : ChainRun notes f s (placeOf world.files.here s.dir) (named stages) input
      (withFiles world made) ending) (done : ending.1 = .done last)
    (apart : ¬ Below (placeOf world.files.here s.dir) (placeOf world.files.here input))
    {files : FileTree} (finished : last.same (s.dir.join finalTask) = true ∨
      ending.2.files.copy last (s.dir.join finalTask) = .ok files) :
    ∃ content out, world.files.Holds input content ∧
      compose f (invocations s (named stages) input) content = some out ∧
      files.read (s.dir.join finalTask) = .ok out := by
  have hmade := confined_makeDirs world.files s.dir
  rw [make] at hmade
  have hhere : made.here = world.files.here := hmade.here
  have hran : ending.2.files.here = made.here := run.touches.here
  have hapart : placeOf ending.2.files.here last ≠
      placeOf ending.2.files.here (s.dir.join finalTask) := by
    rw [hran, placeOf_join_name _ _ IsTaskName.final.isName, ← directory.placeOf]
    refine ne_final_of_chainRun run directory done ?_
    show ¬ Below _ (placeOf made.here input)
    rwa [hhere]
  have hspared : Spared (placeOf world.files.here s.dir) made.here input := by
    intro stage heq
    rw [hhere] at heq
    exact apart ⟨stage.dirName, [stageConf stage], heq⟩
  rcases finished with hsame | hcopy
  · exact (hapart (placeOf_eq_of_same hsame _)).elim
  · obtain ⟨_, out, hread, hresult⟩ := of_copy hcopy
    obtain ⟨content, hcontent, hcompose⟩ :=
      run.composed last out done hspared (holds_of_read hread)
    refine ⟨content, out, ?_, hcompose, hresult hapart⟩
    rw [Holds, ← hhere]
    exact (hmade.file_iff (fun h => h) content).1 hcontent

/-- The chain of an attempt whose directory has been made, and what becomes of its last result. -/
theorem attemptRun_of_chainRun {chain : Act σ StageError Path}
    (run : ChainRun notes f s (placeOf world.files.here s.dir) (named stages) input
      (withFiles world made) (chain (withFiles world made))) :
    AttemptRun notes f s stages input world
      ((chain >>= fun last => finish last (s.dir.join finalTask)) (withFiles world made)) := by
  have hmade := confined_makeDirs world.files s.dir
  rw [make] at hmade
  have hconfined : Confined
      (fun loc => ∃ p ∈ named stages, Made (placeOf world.files.here s.dir) p loc)
      (OnWay world.files.here s.dir) world.files (chain (withFiles world made)).2.files :=
    (hmade.mono (fun _ h => h.elim) fun _ => .inr).trans run.touches.confined
  cases hdone : (chain (withFiles world made)).1.isDone with
  | false =>
    obtain ⟨hundone, hworld⟩ := bind_undone hdone
      fun last => finish last (s.dir.join finalTask)
    refine attemptRun_of_undone hundone ?_ ?_
    · rw [hworld]
      exact hconfined
    · rw [hworld]
      exact run.undone hdone
  | true =>
    obtain ⟨last, hlast⟩ := eq_of_isDone hdone
    have hcalled := run.called hdone
    rw [bind_of_done hlast]
    rcases finish_cases last (s.dir.join finalTask) (chain (withFiles world made)).2 with
      hfailed | ⟨files, hfinished, hfiles⟩
    · -- All stages have run, and the copy failed.
      rw [hfailed]
      exact attemptRun_of_undone rfl hconfined ⟨_, List.prefix_rfl, .inl hcalled⟩
    · rw [hfinished]
      refine ⟨(hconfined.mono below_of_mem_made fun _ => .inr).trans ?_, fun final h => ?_,
        fun _ => hcalled, fun _ apart => ?_, fun h => (by cases h), fun h => (by cases h)⟩
      · rcases hfiles with ⟨_, rfl⟩ | hcopy
        · exact .refl _ _ _
        · refine ((of_copy hcopy).1.mono fun loc hloc => ?_).confined
          rw [hloc, hconfined.here, placeOf_join_name _ _ IsTaskName.final.isName]
          exact ⟨finalTask, [], rfl⟩
      · cases h
        rfl
      · exact exists_composed make directory run (congrArg Prod.fst hlast) apart
          (hfiles.imp_left And.left)

end

theorem prepareWith_run (computes : ∀ s r, k.registry s = some r → Computes notes f r)
    (t : Task) (own : List ConfiguredStage) (world : World σ) :
    AttemptRun notes f (setting k.workspace t) (plan k.workspace t own).1
      (plan k.workspace t own).2 world (k.prepareWith t own world) := by
  rw [prepareWith_eq_finish]
  cases hmake : world.files.makeDirs (setting k.workspace t).dir with
  | mk made result =>
    cases result with
    | error e =>
      have hconfined := confined_makeDirs world.files (setting k.workspace t).dir
      rw [hmake] at hconfined
      rw [bind_of_failed (io_makeDirs_failed hmake)]
      exact attemptRun_of_undone rfl (hconfined.mono (fun _ h => h.elim) fun _ => .inr)
        (stopped_nil _ _)
    | ok _ =>
      have hdirectory := directoryAt_of_makeDirs hmake (text_attemptDir_ne_empty _ _ _)
      rw [bind_of_done (io_makeDirs_done hmake)]
      exact attemptRun_of_chainRun hmake hdirectory (runChain_run computes
        (fun _ => isOutput_of_mem_named) (withFiles world made) _ hdirectory)

end

/-! ### Where tasks start from -/

theorem artifact_of_start {w : Workspace} {a : AbstractTask} {c : RequirementClass}
    {world' : World σ} {initial : Path}
    (h : EnvModels.start w a c world = (.done initial, world')) :
    initial = (w.abstractDir a.id).join initialTask := by
  simp only [EnvModels.start, Act.bind_eq_andThen] at h
  obtain ⟨_, _, _, h⟩ := Act.exists_of_andThen_done h
  obtain ⟨_, _, _, h⟩ := Act.exists_of_andThen_done h
  obtain ⟨_, _, _, h⟩ := Act.exists_of_andThen_done h
  obtain ⟨_, _, _, h⟩ := Act.exists_of_andThen_done h
  cases h
  rfl

/-- The artifact of a model is in the directory of the model, or in that of the abstract task. -/
theorem artifact_of_generate {registry : Registry (Runner σ)} {w : Workspace} {a : AbstractTask}
    {c : RequirementClass} {world' : World σ} {models : List EnvModel}
    (h : EnvModels.generate registry w a c world = (.done models, world')) {m : EnvModel}
    (hm : m ∈ models) : m.artifact = (w.modelDir a.id m.id).join initialTask ∨
      m.artifact = (w.abstractDir a.id).join initialTask := by
  simp only [EnvModels.generate, Act.bind_eq_andThen] at h
  obtain ⟨initial, started, hstart, h⟩ := Act.exists_of_andThen_done h
  split at h
  · cases h
    rw [List.mem_singleton.1 hm]
    exact .inr (artifact_of_start hstart)
  · obtain ⟨last, ran, _, h⟩ := Act.exists_of_andThen_done h
    obtain ⟨found, read, _, hstored⟩ := Act.exists_of_andThen_done h
    obtain ⟨hmodels, _⟩ := EnvModels.of_storeAll _ hstored
    rw [hmodels] at hm
    obtain ⟨p, _, rfl⟩ := List.mem_map.1 hm
    exact .inl rfl

/-- An artifact is never below the directory of a task. -/
theorem not_below_artifact {w : Workspace} {a : AbstractTaskId} {model : String} {artifact : Path}
    (h : artifact = (w.modelDir a model).join initialTask ∨
      artifact = (w.abstractDir a).join initialTask) (id : TaskId) (here : Location) :
    ¬ Below (placeOf here (w.taskDir id)) (placeOf here artifact) := by
  rintro ⟨name, rest, heq⟩
  have hlength := congrArg List.length heq
  rw [placeOf_taskDir] at hlength
  rcases h with rfl | rfl
  · rw [placeOf_join_name _ _ isName_initialTask, modelDir_eq,
      placeOf_descend (isName_modelNames _ _)] at hlength
    simp [taskNames, modelNames, abstractNames] at hlength
  · rw [placeOf_join_name _ _ isName_initialTask, abstractDir_eq,
      placeOf_descend (isName_abstractNames _)] at hlength
    simp [taskNames, modelNames, abstractNames] at hlength

/-! ### All together -/

def Produces (f : Stage → ByteArray → ByteArray → Option ByteArray) (plan : List Invocation)
    (input final : Path) (world world' : World σ) : Prop :=
  ∃ content out, world.files.Holds input content ∧ compose f plan content = some out ∧
    world'.files.read final = .ok out

structure Preparing (k : Worker σ) (notes : σ → List (Invocation × Bool))
    (f : Stage → ByteArray → ByteArray → Option ByteArray) : Prop where
  /-- The first attempt runs all stages, once each, on the artifact of the model. -/
  first : ∀ {t r final} {world world' : World σ}, k.requirement? t.id = some r → t.attempt = 0 →
    k.prepare t world = (.done final, world') →
    final = (k.workspace.taskDir t.id).join finalTask ∧
      notes world'.others =
        notes world.others ++ (calls k.workspace t r.ownStages t.artifact).map (·, true) ∧
      (¬ Below (placeOf world.files.here (k.workspace.taskDir t.id))
          (placeOf world.files.here t.artifact) →
        Produces f (calls k.workspace t r.ownStages t.artifact) t.artifact final world world')
  /-- A later attempt runs the last stage, on the final document of the attempt before it. -/
  again : ∀ {t r last final} {world world' : World σ}, k.requirement? t.id = some r →
    t.attempt = last + 1 → k.prepare t world = (.done final, world') →
    final = (k.workspace.attemptDir t.id (last + 1)).join finalTask ∧
      notes world'.others = notes world.others ++
        (calls k.workspace t r.ownStages.getLast?.toList
          ((k.workspace.attemptDir t.id last).join finalTask)).map (·, true) ∧
      Produces f
        (calls k.workspace t r.ownStages.getLast?.toList
          ((k.workspace.attemptDir t.id last).join finalTask))
        ((k.workspace.attemptDir t.id last).join finalTask) final world world'
  /-- The stages of an attempt are linked in their order, and all of them are told its limits. -/
  linked : ∀ t stages input, Linked (setting k.workspace t) (named stages) input
    (calls k.workspace t stages input)
  informed : ∀ {t stages input i}, i ∈ calls k.workspace t stages input →
    ∃ members, i.conf = .object members ∧
      Dict.find? members "override resource limits" = some t.limits.toJson
  /-- Behind a stage that fails none is called. -/
  stopped : ∀ {t r} {world : World σ}, k.requirement? t.id = some r →
    (k.prepare t world).1.isDone = false →
    Stopped (notes world.others) (notes (k.prepare t world).2.others)
      (calls k.workspace t (plan k.workspace t r.ownStages).1 (plan k.workspace t r.ownStages).2)
  /-- An attempt that fails writes no final document. -/
  unfinished : ∀ {t} {world : World σ}, (k.prepare t world).1.isDone = false → ∀ bytes,
    (k.prepare t world).2.files.Holds ((k.workspace.attemptDir t.id t.attempt).join finalTask)
        bytes ↔
      world.files.Holds ((k.workspace.attemptDir t.id t.attempt).join finalTask) bytes
  /-- Nothing is submitted then, whoever would solve the task. -/
  unsubmitted : ∀ {t} {world : World σ}, (k.prepare t world).1.isDone = false →
    ∀ session : Session σ, (({ k with session } : Worker σ).solve t world).1.isDone = false ∧
      (({ k with session } : Worker σ).solve t world).2 = (k.prepare t world).2
  /-- Outside the directory of the task nothing is changed, except that directories on the way to
  it are made. -/
  confined : ∀ (t : Task) (world : World σ),
    Confined (Below (placeOf world.files.here (k.workspace.taskDir t.id)))
      (OnWay world.files.here (k.workspace.taskDir t.id)) world.files (k.prepare t world).2.files
  /-- No task starts from a place in the directory of a task. -/
  apart : ∀ {a c models} {world world' : World σ},
    EnvModels.generate k.registry k.workspace a c world = (.done models, world') →
    ∀ m ∈ models, ∀ id here,
      ¬ Below (placeOf here (k.workspace.taskDir id)) (placeOf here m.artifact)

theorem mapError_run {ε ε' α : Type} (g : ε → ε') (a : Act σ ε α) (world : World σ) :
    (a.mapError g world).2 = (a world).2 ∧
      (a.mapError g world).1.isDone = (a world).1.isDone ∧
      ∀ result, (a.mapError g world).1 = .done result → (a world).1 = .done result := by
  rw [Act.mapError]
  cases a world with
  | mk outcome u =>
    cases outcome with
    | done result => exact ⟨rfl, rfl, fun _ h => (by cases h; rfl)⟩
    | failed e => exact ⟨rfl, rfl, fun _ h => (by cases h)⟩
    | panicked reason => exact ⟨rfl, rfl, fun _ h => (by cases h)⟩
    | hung => exact ⟨rfl, rfl, fun _ h => (by cases h)⟩

section
variable {r : Requirement}

theorem prepare_run (found : k.requirement? t.id = some r) (world : World σ) :
    (k.prepare t world).2 = (k.prepareWith t r.ownStages world).2 ∧
      (k.prepare t world).1.isDone = (k.prepareWith t r.ownStages world).1.isDone ∧
      ∀ final, (k.prepare t world).1 = .done final →
        (k.prepareWith t r.ownStages world).1 = .done final := by
  rw [prepare, found]
  exact mapError_run WorkerError.stage (k.prepareWith t r.ownStages) world

/-- Without the requirement nothing is done. -/
theorem prepare_of_none (found : k.requirement? t.id = none) (world : World σ) :
    ∃ e, k.prepare t world = (.failed e, world) := by
  rw [prepare, found]
  exact ⟨_, rfl⟩

theorem produces_of_prepare (computes : ∀ s r, k.registry s = some r → Computes notes f r)
    (found : k.requirement? t.id = some r) {stages : List ConfiguredStage} {input final : Path}
    (planned : plan k.workspace t r.ownStages = (stages, input)) {world' : World σ}
    (h : k.prepare t world = (.done final, world')) :
    final = (k.workspace.attemptDir t.id t.attempt).join finalTask ∧
      notes world'.others = notes world.others ++ (calls k.workspace t stages input).map (·, true) ∧
      (¬ Below (placeOf world.files.here (k.workspace.attemptDir t.id t.attempt))
          (placeOf world.files.here input) →
        Produces f (calls k.workspace t stages input) input final world world') := by
  have hrun := prepareWith_run computes t r.ownStages world
  rw [planned] at hrun
  obtain ⟨hworld, hdone, hresult⟩ := prepare_run found world
  rw [h] at hworld hdone hresult
  have hfinal := hrun.final final (hresult final rfl)
  subst hworld hfinal
  exact ⟨rfl, hrun.called hdone.symm, hrun.composed hdone.symm⟩

end

theorem preparing (k : Worker σ) (notes : σ → List (Invocation × Bool))
    (f : Stage → ByteArray → ByteArray → Option ByteArray)
    (computes : ∀ s r, k.registry s = some r → Computes notes f r) : Preparing k notes f where
  first {t r final world world'} found attempt h := by
    have hdir : k.workspace.attemptDir t.id t.attempt = k.workspace.taskDir t.id := by
      rw [attemptDir, if_pos attempt]
    have hplan : plan k.workspace t r.ownStages = (r.ownStages, t.artifact) := by
      rw [plan, if_pos attempt]
    rw [← hdir]
    exact produces_of_prepare computes found hplan h
  again {t r last final world world'} found attempt h := by
    have hplan : plan k.workspace t r.ownStages = (r.ownStages.getLast?.toList,
        (k.workspace.attemptDir t.id last).join finalTask) := by
      rw [plan, if_neg (by rw [attempt]; exact Nat.succ_ne_zero last), attempt, drop_eq_getLast?]
      rfl
    obtain ⟨hfinal, hcalled, hproduces⟩ := produces_of_prepare computes found hplan h
    rw [attempt] at hfinal hproduces
    exact ⟨hfinal, hcalled, hproduces (not_below_next _ _ _ _)⟩
  linked t stages input := linked_invocations _ _ _
  informed := limits_of_mem_calls
  stopped {t r world} found undone := by
    obtain ⟨hworld, hdone, _⟩ := prepare_run found world
    rw [hworld]
    exact (prepareWith_run computes t r.ownStages world).stopped (hdone ▸ undone)
  unfinished {t world} undone bytes := by
    cases found : k.requirement? t.id with
    | none =>
      obtain ⟨e, he⟩ := prepare_of_none found world
      rw [he]
    | some r =>
      obtain ⟨hworld, hdone, _⟩ := prepare_run found world
      rw [hworld]
      exact (prepareWith_run computes t r.ownStages world).unfinished (hdone ▸ undone) bytes
  unsubmitted {t world} undone session := by
    have hundone : (({ k with session } : Worker σ).prepare t world).1.isDone = false := undone
    exact bind_undone hundone _
  confined t world := by
    cases found : k.requirement? t.id with
    | none =>
      obtain ⟨e, he⟩ := prepare_of_none found world
      rw [he]
      exact .refl _ _ _
    | some r =>
      rw [(prepare_run found world).1]
      exact (prepareWith_run computes t r.ownStages world).confined.mono
        (fun _ => Below.of_attempt) fun _ h => (onWay_attemptDir h).symm
  apart generated m hm id here := not_below_artifact (artifact_of_generate generated hm) id here

/-! ### Samples -/

def written? (f : Stage → ByteArray → ByteArray → Option ByteArray) (i : Invocation)
    (files : FileTree) : Option FileTree := do
  let conf ← (files.read i.confPath).toOption
  let content ← (files.read i.input).toOption
  let output ← f i.stage conf content
  (files.write i.output output).toOption

/-- The runner that computes a function and takes down every call. -/
def computing (f : Stage → ByteArray → ByteArray → Option ByteArray) :
    Runner (List (Invocation × Bool)) := fun i world =>
  let result := written? f i world.files
  (if result.isSome then .done () else .failed (.failed i.stage "no result"),
    { world with
      files := result.getD world.files
      others := world.others ++ [(i, result.isSome)] })

theorem eq_ok_of_toOption {ε α : Type} {e : Except ε α} {a : α} (h : e.toOption = some a) :
    e = .ok a := by
  cases e with
  | error _ => cases h
  | ok b =>
    cases h
    rfl

theorem written?_eq_some {i : Invocation} {files files' : FileTree}
    (h : written? f i files = some files') : ∃ conf content output,
      files.read i.confPath = .ok conf ∧ files.read i.input = .ok content ∧
        f i.stage conf content = some output ∧ files.write i.output output = .ok files' := by
  simp only [written?, Option.bind_eq_bind, Option.bind_eq_some_iff] at h
  obtain ⟨conf, hconf, content, hcontent, output, hvalue, hwrite⟩ := h
  exact ⟨conf, content, output, eq_ok_of_toOption hconf, eq_ok_of_toOption hcontent, hvalue,
    eq_ok_of_toOption hwrite⟩

theorem computes_computing (f : Stage → ByteArray → ByteArray → Option ByteArray) :
    Computes id f (computing f) := by
  refine ⟨fun i world => ?_, fun i world hdone => ?_, fun i world => ?_⟩
  · unfold computing
    cases written? f i world.files with
    | none => rfl
    | some files => rfl
  · unfold computing at hdone ⊢
    cases hwritten : written? f i world.files with
    | none =>
      rw [hwritten] at hdone
      cases hdone
    | some files =>
      obtain ⟨conf, content, output, hconf, hcontent, hvalue, hwrite⟩ := written?_eq_some hwritten
      exact ⟨conf, content, output, hconf, hcontent, hvalue, (of_write hwrite).2⟩
  · unfold computing
    cases hwritten : written? f i world.files with
    | none => exact .refl _ _
    | some files =>
      obtain ⟨_, _, _, _, _, _, hwrite⟩ := written?_eq_some hwritten
      exact touches_of_write hwrite

def signing (s : Stage) (_ content : ByteArray) : Option ByteArray :=
  some (content ++ s.name.toUTF8)

def signingClass : RequirementClass :=
  ⟨"k", ⟨"r", [⟨.environmentModel, []⟩, ⟨.requirementModel, []⟩, ⟨.weaver, []⟩]⟩, []⟩

def signingWorker : Worker (List (Invocation × Bool)) where
  registry _ := some (computing signing)
  session := ⟨fun _ _ => Act.fail .io, fun _ => Act.fail .io⟩
  classes := [("k", signingClass)]
  workspace := ⟨⟨"/w"⟩⟩
  pause := ⟨0⟩
  patience := 0

def finalText? (attempt : Path) (files : FileTree) : Option String :=
  (files.readText (attempt.join finalTask)).toOption

/-- Two attempts: the second one signs what the first one has made. -/
theorem preparing_of_signing :
    let first := firstTask "r"
    let again := { first with attempt := 1 }
    let once := signingWorker.prepare first ⟨modelFiles, ⟨0⟩, none, []⟩
    let twice := signingWorker.prepare again once.2
    (∀ s r, signingWorker.registry s = some r → Computes id signing r) ∧
      Preparing signingWorker id signing ∧
      once.1.isDone = true ∧
      finalText? (signingWorker.workspace.attemptDir first.id 0) once.2.files =
        some "{}RSGWeaver" ∧
      twice.1.isDone = true ∧
      finalText? (signingWorker.workspace.attemptDir first.id 1) twice.2.files =
        some "{}RSGWeaverWeaver" := by
  have hcomputes : ∀ s r, signingWorker.registry s = some r → Computes id signing r := by
    intro s r hr
    cases hr
    exact computes_computing signing
  refine ⟨hcomputes, preparing signingWorker id signing hcomputes, ?_⟩
  decide +kernel

end Worker
end TaskGen
