import TaskGen.Proofs.Coincidences.Models
import TaskGen.Worker

/-!
What becomes of models and tasks whose identifiers are the names of artifacts.  All stages do their
work here, and nothing else is in the way.  Then a later attempt never fails, and a first one fails
exactly if the requirement has a name that no file can have, or that of the artifact of its model.

Main statement: `Worker.coincidences`.
-/

namespace TaskGen

open FileTree

namespace Worker

open Pipeline Workspace

variable {σ : Type} {k : Worker σ} {t : Task} {r : Requirement} {world : World σ}

theorem ne_final_of_isOutput {name : String} (h : IsOutput name) : name ≠ finalTask := by
  cases h with
  | models => decide
  | stage s => cases s <;> decide

theorem copy_done {files : FileTree} {p q : Path} {dir : Location} (readable : files.Readable p)
    (directory : DirectoryAt files q dir) {name : String} (isName : IsName name) (fits : Fits name)
    (free : files.get? (dir ++ [name]) ≠ some .directory) :
    ∃ files', files.copy p (q.join name) = .ok files' := by
  obtain ⟨bytes, hread⟩ := readable
  obtain ⟨place, hlocate, _⟩ := exists_of_read hread
  have htarget := directory.locate_join isName fits
  simp only [copy, hread, hlocate, htarget, bind, Except.bind,
    directory.write_join isName fits free]
  exact ⟨_, rfl⟩

theorem mem_of_mem_plan {w : Workspace} {own : List ConfiguredStage} {c : ConfiguredStage}
    (h : c ∈ (plan w t own).1) : c ∈ own := by
  unfold plan at h
  split at h
  · exact h
  · exact List.mem_of_mem_drop h

theorem ready_of_empty {files : FileTree} {dir : Location}
    (empty : ∀ name rest, files.get? (dir ++ name :: rest) = none)
    (p : ConfiguredStage × String) : Ready files dir p := by
  refine ⟨?_, fun bytes hfile => ?_, ?_⟩
  · rw [empty]
    simp
  · rw [empty] at hfile
    cases hfile
  · rw [empty]
    simp

theorem prepareWith_eq (k : Worker σ) (t : Task) (own : List ConfiguredStage) :
    k.prepareWith t own = (do
      let dir := k.workspace.attemptDir t.id t.attempt
      io (Act.makeDirs dir)
      let last ← runChain k.registry ⟨dir, some t.id.requirement, some t.limits⟩
        ((plan k.workspace t own).1.map fun c => (c, stageOutput c.stage))
        (plan k.workspace t own).2
      if last.same (dir.join finalTask) then pure (dir.join finalTask)
      else
        io (Act.change fun files => files.copy last (dir.join finalTask))
        pure (dir.join finalTask)) := rfl

/-- An attempt succeeds if its directory can be made and nothing is in it. -/
theorem prepareWith_done (reliable : ∀ s r, k.registry s = some r → Reliable r)
    {own : List ConfiguredStage} (registered : ∀ c ∈ own, (k.registry c.stage).isSome = true)
    {made : FileTree} {dir : Location}
    (make : world.files.makeDirs (k.workspace.attemptDir t.id t.attempt) = (made, .ok ()))
    (directory : DirectoryAt made (k.workspace.attemptDir t.id t.attempt) dir)
    (empty : ∀ name rest, made.get? (dir ++ name :: rest) = none)
    (readable : made.Readable (plan k.workspace t own).2) :
    ∃ world', k.prepareWith t own world =
      (.done ((k.workspace.attemptDir t.id t.attempt).join finalTask), world') := by
  let chain := (plan k.workspace t own).1.map fun c => (c, stageOutput c.stage)
  have houtputs : ∀ p ∈ chain, IsOutput p.2 := by
    intro p hp
    obtain ⟨c, _, rfl⟩ := List.mem_map.1 hp
    exact .stage c.stage
  have hreliable : ∀ p ∈ chain, ∃ r, k.registry p.1.stage = some r ∧ Reliable r := by
    intro p hp
    obtain ⟨c, hc, rfl⟩ := List.mem_map.1 hp
    obtain ⟨r, hr⟩ := Option.isSome_iff_exists.1 (registered c (mem_of_mem_plan hc))
    exact ⟨r, hr, reliable _ r hr⟩
  obtain ⟨last, ran, hran, hlast, hchained⟩ := runChain_done
    (s := ⟨k.workspace.attemptDir t.id t.attempt, some t.id.requirement, some t.limits⟩)
    hreliable houtputs (withFiles world made) directory (fun p _ => ready_of_empty empty p) readable
  have hfinal : ran.files.get? (dir ++ [finalTask]) ≠ some .directory := by
    have hapart : ∀ p ∈ chain, finalTask ≠ p.2 ∧ finalTask ≠ p.1.stage.dirName := by
      intro p hp
      refine ⟨(ne_final_of_isOutput (houtputs p hp)).symm, ?_⟩
      cases p.1.stage <;> decide
    rw [hchained.get?_eq hapart]
    show made.get? (dir ++ [finalTask]) ≠ _
    rw [empty]
    simp
  obtain ⟨copied, hcopy⟩ := copy_done hlast (hchained.touches.directoryAt directory)
    IsTaskName.final.isName ⟨by decide, by decide⟩ hfinal
  have hmade := io_makeDirs_done make
  by_cases hsame : last.same ((k.workspace.attemptDir t.id t.attempt).join finalTask) = true
  · refine ⟨ran, ?_⟩
    rw [prepareWith_eq, bind_of_done hmade, bind_of_done hran, if_pos hsame]
    rfl
  · have hcopied : io (Act.change fun files => files.copy last
        ((k.workspace.attemptDir t.id t.attempt).join finalTask)) ran =
          (.done (), withFiles ran copied) := io_change_done hcopy
    refine ⟨withFiles ran copied, ?_⟩
    rw [prepareWith_eq, bind_of_done hmade, bind_of_done hran, if_neg hsame, bind_of_done hcopied]
    rfl

theorem prepareWith_failed {own : List ConfiguredStage} {made : FileTree} {e : FileError}
    (make : world.files.makeDirs (k.workspace.attemptDir t.id t.attempt) = (made, .error e)) :
    k.prepareWith t own world = (.failed .io, withFiles world made) :=
  bind_of_failed (io_makeDirs_failed make) _

theorem prepare_done (found : k.requirement? t.id = some r) {world' : World σ} {final : Path}
    (h : k.prepareWith t r.ownStages world = (.done final, world')) :
    k.prepare t world = (.done final, world') := by
  rw [prepare, found]
  show (k.prepareWith t r.ownStages).mapError WorkerError.stage world = _
  rw [Act.mapError, h]

theorem prepare_failed (found : k.requirement? t.id = some r) {world' : World σ} {e : StageError}
    (h : k.prepareWith t r.ownStages world = (.failed e, world')) :
    k.prepare t world = (.failed (.stage e), world') := by
  rw [prepare, found]
  show (k.prepareWith t r.ownStages).mapError WorkerError.stage world = _
  rw [Act.mapError, h]

/-- What the first attempt at a task finds: the artifact of its model, and nothing else where it is
going to work. -/
structure Awaited (files : FileTree) (w : Workspace) (t : Task) (dir : Location) : Prop where
  first : t.attempt = 0
  directory : DirectoryAt files (w.abstractDir t.id.abstractId) dir
  model : Fits (escape t.id.model)
  passable : files.Passable (dir ++ [escape t.id.model])
  artifact : t.artifact = (w.modelDir t.id.abstractId t.id.model).join initialTask ∨
    t.artifact = (w.abstractDir t.id.abstractId).join initialTask
  readable : files.Readable t.artifact
  alone : ∀ rest, dir ++ escape t.id.model :: escape t.id.requirement :: rest ≠
      placeOf files.here t.artifact →
    files.get? (dir ++ escape t.id.model :: escape t.id.requirement :: rest) = none

section
variable {files : FileTree} {w : Workspace} {dir : Location}

theorem Awaited.place (h : Awaited files w t dir) :
    placeOf files.here t.artifact = dir ++ [escape t.id.model, initialTask] ∧
        ((w.taskDir t.id).steps = t.artifact.steps ↔ t.id.requirement = initialTask) ∨
      placeOf files.here t.artifact = dir ++ [initialTask] ∧
        (w.taskDir t.id).steps ≠ t.artifact.steps := by
  have hplace : ∀ ns : List String, (∀ q ∈ ns, IsName q) → placeOf files.here
      ((w.abstractDir t.id.abstractId).descend ns) = dir ++ ns := by
    intro ns hns
    rw [placeOf_descend hns, ← h.directory.placeOf]
  rcases h.artifact with hartifact | hartifact
  · have hpath : (w.modelDir t.id.abstractId t.id.model).join initialTask =
        (w.abstractDir t.id.abstractId).descend [escape t.id.model, initialTask] := rfl
    have hnames : ∀ q ∈ [escape t.id.model, initialTask], IsName q := by
      simp [isName_escape, isName_initialTask]
    refine .inl ⟨?_, ?_⟩
    · rw [hartifact, hpath, hplace _ hnames]
    · rw [hartifact, taskDir_artifact_iff]
      simp
  · have hpath : (w.abstractDir t.id.abstractId).join initialTask =
        (w.abstractDir t.id.abstractId).descend [initialTask] := rfl
    refine .inr ⟨?_, ?_⟩
    · rw [hartifact, hpath, hplace _ (by simp [isName_initialTask])]
    · rw [hartifact]
      exact taskDir_ne_initial w t.id t.id.abstractId

theorem Awaited.empty (h : Awaited files w t dir)
    (apart : (w.taskDir t.id).steps ≠ t.artifact.steps) (rest : List String) :
    files.get? (dir ++ escape t.id.model :: escape t.id.requirement :: rest) = none := by
  refine h.alone rest fun heq => ?_
  rcases h.place with ⟨hplace, hiff⟩ | ⟨hplace, _⟩
  · rw [hplace, List.append_cancel_left_eq] at heq
    simp only [List.cons.injEq, true_and] at heq
    exact apart (hiff.2 ((IsFixed.initial.escape_iff _).1 heq.1))
  · rw [hplace, List.append_cancel_left_eq] at heq
    have hlength := congrArg List.length heq
    simp at hlength

theorem Awaited.file (h : Awaited files w t dir)
    (same : (w.taskDir t.id).steps = t.artifact.steps) :
    ∃ bytes, files.get? (dir ++ [escape t.id.model, escape t.id.requirement]) =
      some (.file bytes) := by
  rcases h.place with ⟨hplace, hiff⟩ | ⟨_, hne⟩
  · obtain ⟨bytes, hread⟩ := h.readable
    obtain ⟨place, hlocate, hfile⟩ := exists_of_read hread
    rw [locate_eq_placeOf hlocate, hplace] at hfile
    rw [hiff.1 same, IsFixed.initial.escape_eq]
    exact ⟨bytes, hfile⟩
  · exact (hne same).elim

theorem Awaited.exists_made (h : Awaited files w t dir) :
    ∃ made, files.makeDirs (w.modelDir t.id.abstractId t.id.model) = (made, .ok ()) ∧
      DirectoryAt made (w.modelDir t.id.abstractId t.id.model) (dir ++ [escape t.id.model]) ∧
      ∀ rest, made.get? (dir ++ [escape t.id.model] ++ escape t.id.requirement :: rest) =
        files.get? (dir ++ escape t.id.model :: escape t.id.requirement :: rest) := by
  obtain ⟨hmake, hmodel⟩ := makeDirs_join_of_fits h.directory.makeDirs h.directory
    (isName_escape t.id.model) h.model h.passable
  refine ⟨_, hmake, hmodel, fun rest => ?_⟩
  rw [(touches_ensure _ _).same _ (by simp), List.append_assoc]
  rfl

end

/-- What a later attempt finds: the final result of the one before it, and nothing where it is going
to work. -/
structure Resumed (files : FileTree) (w : Workspace) (t : Task) (last : Nat) (dir : Location) :
    Prop where
  next : t.attempt = last + 1
  counted : t.attempt < 2 ^ 32
  directory : DirectoryAt files (w.taskDir t.id) dir
  readable : files.Readable ((w.attemptDir t.id last).join finalTask)
  empty : ∀ rest, files.get? (dir ++ ("attempt-" ++ toString t.attempt) :: rest) = none

section
variable {dir : Location} (found : k.requirement? t.id = some r)
include found

/-- The first attempt at a task succeeds if the requirement is not called like the artifact. -/
theorem prepare_first (reliable : ∀ s r, k.registry s = some r → Reliable r)
    (registered : ∀ c ∈ r.ownStages, (k.registry c.stage).isSome = true)
    (awaited : Awaited world.files k.workspace t dir) (fits : Fits (escape t.id.requirement))
    (apart : (k.workspace.taskDir t.id).steps ≠ t.artifact.steps) :
    ∃ world', k.prepare t world = (.done ((k.workspace.taskDir t.id).join finalTask), world') := by
  obtain ⟨made, hmodel, hmodelAt, hsame⟩ := awaited.exists_made
  have hnone : ∀ rest, made.get? (dir ++ [escape t.id.model] ++ escape t.id.requirement :: rest) =
      none := fun rest => (hsame rest).trans (awaited.empty apart rest)
  obtain ⟨htask, htaskAt⟩ := makeDirs_join_of_fits hmodel hmodelAt (isName_escape t.id.requirement)
    fits (fun bytes hfile => by rw [hnone] at hfile; cases hfile)
  have hattempt : k.workspace.attemptDir t.id t.attempt = k.workspace.taskDir t.id := by
    rw [attemptDir, if_pos awaited.first]
  change world.files.makeDirs (k.workspace.taskDir t.id) = _ at htask
  change DirectoryAt _ (k.workspace.taskDir t.id) _ at htaskAt
  rw [← hattempt] at htask htaskAt
  have hgrown : Grown (fun _ => True) world.files _ :=
    grown_makeDirs world.files (k.workspace.attemptDir t.id t.attempt)
  rw [htask] at hgrown
  have hinput : (plan k.workspace t r.ownStages).2 = t.artifact := by
    rw [plan, if_pos awaited.first]
  obtain ⟨world', hdone⟩ := prepareWith_done reliable registered htask htaskAt
    (fun name rest => by
      rw [(touches_ensure _ _).same _ (by simp), List.append_assoc]
      exact hnone (name :: rest))
    (by rw [hinput]; exact awaited.readable.of_grown hgrown)
  rw [hattempt] at hdone
  exact ⟨world', prepare_done found hdone⟩

theorem prepare_first_failed (awaited : Awaited world.files k.workspace t dir)
    (blocked : ¬ Fits (escape t.id.requirement) ∨
      (k.workspace.taskDir t.id).steps = t.artifact.steps) :
    ∃ world', k.prepare t world = (.failed (.stage .io), world') := by
  obtain ⟨made, hmodel, hmodelAt, hsame⟩ := awaited.exists_made
  have hblocked : ¬ Fits (escape t.id.requirement) ∨
      ¬ made.Passable (dir ++ [escape t.id.model] ++ [escape t.id.requirement]) := by
    refine blocked.imp_right fun hcoincide hfree => ?_
    obtain ⟨bytes, hfile⟩ := awaited.file hcoincide
    exact hfree bytes ((hsame []).trans hfile)
  have hattempt : k.workspace.attemptDir t.id t.attempt = k.workspace.taskDir t.id := by
    rw [attemptDir, if_pos awaited.first]
  obtain ⟨e, hfailed | hfailed⟩ :=
    makeDirs_join_error hmodel hmodelAt (isName_escape t.id.requirement) hblocked
  · exact ⟨_, prepare_failed found (prepareWith_failed (by rw [hattempt]; exact hfailed))⟩
  · exact ⟨_, prepare_failed found (prepareWith_failed (by rw [hattempt]; exact hfailed))⟩

/-- A later attempt at a task succeeds, whatever the requirement is called. -/
theorem prepare_again (reliable : ∀ s r, k.registry s = some r → Reliable r)
    (registered : ∀ c ∈ r.ownStages, (k.registry c.stage).isSome = true) {last : Nat}
    (awaited : Resumed world.files k.workspace t last dir) :
    ∃ world', k.prepare t world =
      (.done ((k.workspace.attemptDir t.id t.attempt).join finalTask), world') := by
  have hattempt : k.workspace.attemptDir t.id t.attempt =
      (k.workspace.taskDir t.id).join ("attempt-" ++ toString t.attempt) := by
    rw [attemptDir, if_neg (by rw [awaited.next]; exact Nat.succ_ne_zero last)]
  obtain ⟨hmake, hdirectory⟩ := makeDirs_join_of_fits awaited.directory.makeDirs awaited.directory
    (isName_attempt t.attempt) (fits_attempt awaited.counted)
    (fun bytes hfile => by rw [awaited.empty] at hfile; cases hfile)
  rw [← hattempt] at hmake hdirectory
  have hgrown : Grown (fun _ => True) world.files _ :=
    grown_makeDirs world.files (k.workspace.attemptDir t.id t.attempt)
  rw [hmake] at hgrown
  have hinput : (plan k.workspace t r.ownStages).2 =
      (k.workspace.attemptDir t.id last).join finalTask := by
    rw [plan, if_neg (by rw [awaited.next]; exact Nat.succ_ne_zero last), awaited.next]
    rfl
  obtain ⟨world', hdone⟩ := prepareWith_done reliable registered hmake hdirectory
    (fun name rest => by
      rw [(touches_ensure _ _).same _ (by simp), List.append_assoc]
      exact awaited.empty (name :: rest))
    (by rw [hinput]; exact awaited.readable.of_grown hgrown)
  exact ⟨world', prepare_done found hdone⟩

end

/-! ### All together -/

/-- Where identifiers and artifacts coincide, and what becomes of the work then.  All stages do
their work here, and nothing else is in the way. -/
structure Coincidences (k : Worker σ) : Prop where
  modelDir_iff : ∀ {name}, IsFixed name → ∀ a b model,
    (k.workspace.modelDir a model).steps = ((k.workspace.abstractDir b).join name).steps ↔
      a = b ∧ model = name
  taskDir_iff : ∀ id a model,
    (k.workspace.taskDir id).steps = ((k.workspace.modelDir a model).join initialTask).steps ↔
      id.abstractId = a ∧ id.model = model ∧ id.requirement = initialTask
  taskDir_ne : ∀ id a,
    (k.workspace.taskDir id).steps ≠ ((k.workspace.abstractDir a).join initialTask).steps
  attemptDir_ne : ∀ {name}, IsTaskName name → ∀ a b attempt,
    (k.workspace.attemptDir a (attempt + 1)).steps ≠ ((k.workspace.taskDir b).join name).steps
  generated : ∀ {t c} {world : World σ} {root f},
    EnvModels.Vacant world.files k.workspace t.id root →
    Fragment.load world.files t.descriptor = .ok f → c.sharedStages ≠ [] →
    (∀ s ∈ c.sharedStages, (k.registry s.stage).isSome = true) →
    ∃ initial started last ran bytes,
      EnvModels.start k.workspace t c world = (.done initial, started) ∧
      runChain k.registry ⟨k.workspace.abstractDir t.id, none, none⟩
        (EnvModels.outputs c.sharedStages) initial started = (.done last, ran) ∧
      ran.files.read last = .ok bytes ∧
      EnvModels.Generated k.registry k.workspace t c world ran bytes
  single : ∀ {t c} {world : World σ} {root f}, EnvModels.Vacant world.files k.workspace t.id root →
    Fragment.load world.files t.descriptor = .ok f → c.sharedStages = [] →
    ∃ world', EnvModels.generate k.registry k.workspace t c world =
      (.done [⟨singleModel, k.workspace.modelDir t.id singleModel,
        (k.workspace.abstractDir t.id).join initialTask⟩], world')
  first : ∀ {t r} {world : World σ} {dir}, k.requirement? t.id = some r →
    (∀ c ∈ r.ownStages, (k.registry c.stage).isSome = true) →
    Awaited world.files k.workspace t dir → Fits (escape t.id.requirement) →
    (k.workspace.taskDir t.id).steps ≠ t.artifact.steps →
    ∃ world', k.prepare t world = (.done ((k.workspace.taskDir t.id).join finalTask), world')
  refused : ∀ {t r} {world : World σ} {dir}, k.requirement? t.id = some r →
    Awaited world.files k.workspace t dir →
    (¬ Fits (escape t.id.requirement) ∨ (k.workspace.taskDir t.id).steps = t.artifact.steps) →
    ∃ world', k.prepare t world = (.failed (.stage .io), world')
  again : ∀ {t r} {world : World σ} {dir last}, k.requirement? t.id = some r →
    (∀ c ∈ r.ownStages, (k.registry c.stage).isSome = true) →
    Resumed world.files k.workspace t last dir →
    ∃ world', k.prepare t world =
      (.done ((k.workspace.attemptDir t.id t.attempt).join finalTask), world')

theorem coincidences (k : Worker σ) (reliable : ∀ s r, k.registry s = some r → Reliable r) :
    Coincidences k where
  modelDir_iff h a b model := k.workspace.modelDir_fixed_iff h a b model
  taskDir_iff id a model := k.workspace.taskDir_artifact_iff id a model
  taskDir_ne id a := k.workspace.taskDir_ne_initial id a
  attemptDir_ne h a b attempt := k.workspace.attemptDir_ne h a b attempt
  generated vacant load shared registered :=
    EnvModels.exists_generated reliable vacant load shared registered
  single vacant load shared := EnvModels.generate_single vacant load shared
  first found registered awaited fits apart :=
    prepare_first found reliable registered awaited fits apart
  refused found awaited blocked := prepare_first_failed found awaited blocked
  again found registered awaited := prepare_again found reliable registered awaited

def writing (v : Json.Value) : Runner σ := fun i => writeJson i.output v

theorem reliable_writing (v : Json.Value) : Reliable (writing v : Runner σ) := by
  intro i world work _ _ _ hfree
  obtain ⟨files, hwrite⟩ := hfree
  obtain ⟨place, hlocate, hget, _⟩ := exists_of_write hwrite
  have hwritten : world.files.write i.output v.pretty.toUTF8 =
      .ok (world.files.put place (.file v.pretty.toUTF8)) := by
    simp only [write, hlocate, bind, Except.bind]
  refine ⟨_, io_change_done hwritten, ⟨_, (of_write hwritten).2⟩,
    (touches_put_file hget _).mono fun loc hloc => .inl ?_⟩
  rw [hloc]
  exact locate_eq_placeOf hlocate

/-! ### Samples -/

def sampleClass : RequirementClass :=
  ⟨"k", ⟨"r", [⟨.environmentModel, []⟩, ⟨.taskPreparation, []⟩]⟩,
    [⟨initialTask, [⟨.environmentModel, []⟩, ⟨.taskPreparation, []⟩]⟩]⟩

def sampleWorker (v : Json.Value) : Worker Unit where
  registry _ := some (writing v)
  session := ⟨fun _ _ => Act.fail .io, fun _ => Act.fail .io⟩
  classes := [("k", sampleClass)]
  workspace := ⟨⟨"/w"⟩⟩
  pause := ⟨0⟩
  patience := 0

theorem reliable_of_sampleWorker (v : Json.Value) :
    ∀ s r, (sampleWorker v).registry s = some r → Reliable r := by
  intro s r hr
  cases hr
  exact reliable_writing v

def sampleId : AbstractTaskId := ⟨"f", "k"⟩

def sampleFiles : FileTree :=
  (FileTree.empty.put ["w"] .directory).put ["f.json"]
    (.file (Json.Value.object [("id", .string "f")]).pretty.toUTF8)

def modelFiles : FileTree :=
  ((((FileTree.empty.put ["w"] .directory).put ["w", "f"] .directory).put ["w", "f", "k"]
    .directory).put ["w", "f", "k", "m"] .directory).put ["w", "f", "k", "m", initialTask]
      (.file "{}".toUTF8)

def inWorld (files : FileTree) : World Unit := ⟨files, ⟨0⟩, none, ()⟩

def sampleLimits : Limits := ⟨1, 1, 1, 1⟩

def firstTask (requirement : String) : Task :=
  ⟨⟨"f", "k", "m", requirement⟩, 0, sampleLimits,
    ((sampleWorker .null).workspace.modelDir sampleId "m").join initialTask⟩

def failure? {α : Type} (o : Outcome StageError α) : Option String :=
  Outcome.casesOn o (fun _ => none) (fun e => some e.message) (fun _ => none) none

theorem vacant_of_sample : EnvModels.Vacant sampleFiles (sampleWorker .null).workspace sampleId
    ["w"] where
  directory := ⟨by decide +kernel, by rfl⟩
  fragment := ⟨by decide +kernel, by decide +kernel⟩
  classKey := ⟨by decide +kernel, by decide +kernel⟩
  passable bytes h := by cases h
  empty rest := by simp [sampleFiles, FileTree.empty, put, get?, abstractNames]

theorem awaited_of_sample : Awaited modelFiles (sampleWorker .null).workspace (firstTask "r")
    ["w", "f", "k"] where
  first := rfl
  directory := ⟨by decide +kernel, by rfl⟩
  model := ⟨by decide +kernel, by decide +kernel⟩
  passable := passable_of_directory (by rfl)
  artifact := .inl rfl
  readable := by
    have hplace : modelFiles.locate (firstTask "r").artifact =
        .ok ["w", "f", "k", "m", initialTask] := by decide +kernel
    exact ⟨"{}".toUTF8, read_of_get? hplace (by rfl)⟩
  alone rest _ := by
    have hmodel : escape (firstTask "r").id.model = "m" := by decide
    have hrequirement : escape (firstTask "r").id.requirement = "r" := by decide
    rw [hmodel, hrequirement]
    simp [modelFiles, FileTree.empty, put, get?, initialTask]

theorem coincidences_of_sample :
    (∀ s r, (sampleWorker .null).registry s = some r → Reliable r) ∧
      Coincidences (sampleWorker .null) ∧
      EnvModels.Vacant sampleFiles (sampleWorker .null).workspace sampleId ["w"] ∧
      Awaited modelFiles (sampleWorker .null).workspace (firstTask "r") ["w", "f", "k"] :=
  ⟨reliable_of_sampleWorker .null, coincidences _ (reliable_of_sampleWorker .null),
    vacant_of_sample, awaited_of_sample⟩

def twoModels (name : String) : Json.Value := .array [EnvModels.called name, EnvModels.called "x"]

/-- A model cannot be called like the list of models, and a requirement cannot be called like the
artifact of a model. -/
theorem identifiers_collide :
    (sampleWorker .null).workspace.modelDir sampleId abstractTasks =
        ((sampleWorker .null).workspace.abstractDir sampleId).join abstractTasks ∧
      failure? (EnvModels.generate (sampleWorker (twoModels abstractTasks)).registry
        (sampleWorker .null).workspace ⟨sampleId, ⟨"/f.json"⟩⟩ sampleClass
        (inWorld sampleFiles)).1 = some "I/O error" ∧
      (sampleWorker .null).workspace.taskDir (firstTask initialTask).id =
        (firstTask initialTask).artifact ∧
      failure? ((sampleWorker .null).prepareWith (firstTask initialTask)
        [⟨.taskPreparation, []⟩] (inWorld modelFiles)).1 = some "I/O error" := by
  decide +kernel

end Worker
end TaskGen
