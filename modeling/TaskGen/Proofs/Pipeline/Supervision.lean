import TaskGen.Proofs.FileTree.Changes
import TaskGen.Proofs.Pipeline

/-!
When a stage counts as done.  Its runner has to report success, and then something has to be where
the result is expected.  Nobody looks there before the call, so a runner that leaves no result is
noticed only if nothing is left from earlier.

Main statement: `supervised`.
-/

namespace TaskGen

def Outcome.isDone {ε α : Type} (o : Outcome ε α) : Bool :=
  Outcome.casesOn o (fun _ => true) (fun _ => false) (fun _ => false) false

namespace FileTree

variable {t t' : FileTree} {p : Path} {loc : Location}

theorem has_iff : t.has p = true ↔ ∃ place e, t.locate p = .ok place ∧ t.get? place = some e := by
  rw [has, find]
  cases hlocate : t.locate p with
  | error e => simp [bind, Except.bind]
  | ok place =>
    cases hget : t.get? place with
    | none => simp [bind, Except.bind, hget]
    | some e => simp [bind, Except.bind, hget]

theorem has_congr (h : t'.find p = t.find p) : t'.has p = t.has p := by
  rw [has, has, h]

/-- Where nothing is, nothing is found. -/
theorem has_of_none (h : t.get? (placeOf t.here p) = none) : t.has p = false := by
  rw [Bool.eq_false_iff]
  intro hhas
  obtain ⟨place, e, hlocate, hget⟩ := has_iff.1 hhas
  rw [locate_eq_placeOf hlocate, h] at hget
  cases hget

theorem has_of_locate (hlocate : t.locate p = .ok loc) :
    t.has p = true ↔ t.get? loc ≠ none := by
  rw [has_iff, hlocate]
  constructor
  · rintro ⟨place, e, hplace, hget⟩
    cases hplace
    simp [hget]
  · intro hne
    obtain ⟨e, hget⟩ := Option.ne_none_iff_exists'.1 hne
    exact ⟨loc, e, rfl, hget⟩

end FileTree

open FileTree

namespace Pipeline

variable {σ : Type} {registry : Registry (Runner σ)} {i : Invocation} {world u v : World σ}

/-! ### The call of a runner -/

/-- The world that the runner of a stage is called in: its working directory is there, with the
options document. -/
structure Prepared (i : Invocation) (world u : World σ) (made : FileTree) : Prop where
  make : world.files.makeDirs i.workDir = (made, .ok ())
  write : made.write i.confPath i.conf.pretty.toUTF8 = .ok u.files
  world : u = withFiles world u.files

theorem checkOutput_eq (i : Invocation) (world : World σ) :
    checkOutput i world = (if world.files.has i.output then .done ()
      else .failed (.missingOutput i.stage i.output), world) := by
  unfold checkOutput
  rw [bind_of_done (a := Act.files) rfl]
  split
  · rfl
  · rfl

theorem get_registered {r : Runner σ} (registered : registry i.stage = some r)
    (world : World σ) : (Act.ofExcept (registry.get i.stage) : Act σ StageError (Runner σ)) world =
      (.done r, world) := by
  rw [Registry.get, registered]
  rfl

/-- The runner decides what becomes of a stage that is prepared, and if it reports success the
look at the output does. -/
theorem executeStage_of_prepared {r : Runner σ} {made : FileTree}
    (registered : registry i.stage = some r) (prepared : Prepared i world u made) :
    executeStage registry i world = (r i >>= fun _ => checkOutput i) u := by
  have hwrite : writeJson i.confPath i.conf (withFiles world made) = (.done (), u) := by
    rw [prepared.world]
    exact writeJson_done prepared.write
  rw [executeStage, bind_of_done (get_registered registered world),
    bind_of_done (io_makeDirs_done prepared.make), bind_of_done hwrite]

/-- Otherwise no runner is called, and there may be new directories. -/
theorem executeStage_cases (registry : Registry (Runner σ)) (i : Invocation) (world : World σ) :
    (∃ r u made, registry i.stage = some r ∧ Prepared i world u made ∧
      executeStage registry i world = (r i >>= fun _ => checkOutput i) u) ∨
    ∃ e files, executeStage registry i world = (.failed e, withFiles world files) ∧
      (files = world.files ∨ files = (world.files.makeDirs i.workDir).1) := by
  cases hr : registry i.stage with
  | none =>
    have hrunner : (Act.ofExcept (registry.get i.stage) : Act σ StageError (Runner σ)) world =
        (.failed (.noRunner i.stage), world) := by
      rw [Registry.get, hr]
      rfl
    exact .inr ⟨_, world.files, bind_of_failed hrunner _, .inl rfl⟩
  | some r =>
    have hrunner := get_registered hr world
    obtain ⟨made, hmake | ⟨e, hmake⟩⟩ : ∃ made, world.files.makeDirs i.workDir = (made, .ok ()) ∨
        ∃ e, world.files.makeDirs i.workDir = (made, .error e) := by
      cases hmake : world.files.makeDirs i.workDir with
      | mk made result =>
        cases result with
        | ok _ => exact ⟨made, .inl rfl⟩
        | error e => exact ⟨made, .inr ⟨e, rfl⟩⟩
    · cases hwrite : made.write i.confPath i.conf.pretty.toUTF8 with
      | error e =>
        have hfailed : writeJson i.confPath i.conf (withFiles world made) = _ :=
          writeJson_failed hwrite
        refine .inr ⟨.io, made, ?_, .inr (by rw [hmake])⟩
        rw [executeStage, bind_of_done hrunner, bind_of_done (io_makeDirs_done hmake),
          bind_of_failed hfailed]
      | ok files =>
        have hprepared : Prepared i world (withFiles world files) made := ⟨hmake, hwrite, rfl⟩
        exact .inl ⟨r, _, made, rfl, hprepared, executeStage_of_prepared hr hprepared⟩
    · refine .inr ⟨.io, made, ?_, .inr (by rw [hmake])⟩
      rw [executeStage, bind_of_done hrunner, bind_of_failed (io_makeDirs_failed hmake)]

/-! ### What is there when the runner is called -/

section
variable {made : FileTree} (prepared : Prepared i world u made)
include prepared

theorem Prepared.made_eq : made = (world.files.makeDirs i.workDir).1 := by
  rw [prepared.make]

theorem Prepared.made_here : made.here = world.files.here := by
  rw [prepared.made_eq]
  exact (confined_makeDirs _ _).here

theorem Prepared.touches : Touches (· = placeOf world.files.here i.confPath) made u.files := by
  rw [← prepared.made_here]
  exact touches_of_write prepared.write

theorem Prepared.confined : Confined (· = placeOf world.files.here i.confPath)
    (OnWay world.files.here i.workDir) world.files u.files := by
  have hmade := confined_makeDirs world.files i.workDir
  rw [← prepared.made_eq] at hmade
  exact (hmade.mono (fun _ h => h.elim) fun _ => .inr).trans prepared.touches.confined

theorem Prepared.read_conf : u.files.read i.confPath = .ok i.conf.pretty.toUTF8 :=
  (of_write prepared.write).2

/-- What is found before is found by the runner too. -/
theorem Prepared.has {p : Path} (h : world.files.has p = true) : u.files.has p = true := by
  obtain ⟨place, e, hlocate, hget⟩ := has_iff.1 h
  have hmade : Grown (fun _ => True) world.files made := by
    rw [prepared.made_eq]
    exact grown_makeDirs _ _
  have hlocate' := prepared.touches.grown.locate (hmade.locate hlocate)
  by_cases hplace : place = placeOf world.files.here i.confPath
  · obtain ⟨conf, hconf, hfile⟩ := exists_of_read prepared.read_conf
    have hhere := prepared.confined.here
    rw [locate_eq_placeOf hconf, hhere, ← hplace] at hfile
    exact has_iff.2 ⟨place, _, hlocate', hfile⟩
  · exact has_iff.2 ⟨place, e, hlocate',
      (prepared.touches.same place hplace).trans (hmade.kept place e trivial hget)⟩

end

section
variable {s : Setting} {p : ConfiguredStage × String} {dir : Location} {made : FileTree}
  (sited : Sited s p i) (directory : DirectoryAt world.files s.dir dir)
include sited directory

theorem placeOf_confPath : placeOf world.files.here i.confPath =
    dir ++ [i.stage.dirName, Workspace.stageConf i.stage] := by
  have hnames : ∀ q ∈ [i.stage.dirName, Workspace.stageConf i.stage], IsName q := by
    simp [isName_dirName, isName_stageConf]
  have hpath : i.confPath = s.dir.descend [i.stage.dirName, Workspace.stageConf i.stage] := by
    rw [Invocation.confPath, sited.workDir]
    rfl
  rw [hpath, placeOf_descend hnames, ← directory.placeOf]

/-- In the directory of a chain nothing is made outside the working directory of the stage. -/
theorem Prepared.touches_work (prepared : Prepared i world u made) :
    Touches (dir ++ [i.stage.dirName] <+: ·) world.files u.files := by
  have hmade := directory.touches_makeDirs (isName_dirName i.stage) (fits_dirName i.stage)
  rw [← sited.workDir, ← prepared.made_eq] at hmade
  refine (hmade.mono fun loc hloc => ?_).trans (prepared.touches.mono fun loc hloc => ?_)
  · rw [hloc]
  · rw [hloc, placeOf_confPath sited directory]
    exact ⟨[Workspace.stageConf i.stage], by simp⟩

end

/-! ### Runners that leave no result -/

def Reports (registry : Registry (Runner σ)) (i : Invocation) (world u v : World σ) : Prop :=
  ∃ r made, registry i.stage = some r ∧ Prepared i world u made ∧ r i u = (.done (), v)

/-- Success is reported, and at the output there is what was there when the runner was called. -/
def Silent (registry : Registry (Runner σ)) (i : Invocation) (world v : World σ) : Prop :=
  ∃ u, Reports registry i world u v ∧ v.files.find i.output = u.files.find i.output

/-- Nothing is at the output, and nothing will be when the stage is prepared. -/
structure Fresh (i : Invocation) (files : FileTree) : Prop where
  none : files.get? (placeOf files.here i.output) = none
  conf : placeOf files.here i.output ≠ placeOf files.here i.confPath
  way : ¬ OnWay files.here i.workDir (placeOf files.here i.output)

theorem executeStage_of_reports (h : Reports registry i world u v) :
    executeStage registry i world = (if v.files.has i.output then .done ()
      else .failed (.missingOutput i.stage i.output), v) := by
  obtain ⟨r, made, registered, prepared, run⟩ := h
  rw [executeStage_of_prepared registered prepared, bind_of_done run, checkOutput_eq]

theorem executeStage_done_iff : executeStage registry i world = (.done (), v) ↔
    ∃ u, Reports registry i world u v ∧ v.files.has i.output = true := by
  constructor
  · intro hdone
    rcases executeStage_cases registry i world with
      ⟨r, u, made, registered, prepared, heq⟩ | ⟨e, files, heq, _⟩
    · rw [heq] at hdone
      obtain ⟨_, v', hrun, hcheck⟩ := Act.exists_of_andThen_done hdone
      rw [checkOutput_eq, Prod.mk.injEq] at hcheck
      obtain ⟨houtput, rfl⟩ := hcheck
      refine ⟨u, ⟨r, made, registered, prepared, hrun⟩, ?_⟩
      by_contra hmissing
      rw [if_neg hmissing] at houtput
      cases houtput
    · rw [heq, Prod.mk.injEq] at hdone
      cases hdone.1
  · rintro ⟨u, hreports, hhas⟩
    rw [executeStage_of_reports hreports, if_pos hhas]

/-- What the runner does not write is what it found. -/
theorem Silent.exists_prepared (h : Silent registry i world v) :
    ∃ u made, Prepared i world u made ∧
      executeStage registry i world = (if u.files.has i.output then .done ()
        else .failed (.missingOutput i.stage i.output), v) := by
  obtain ⟨u, ⟨r, made, registered, prepared, run⟩, hfind⟩ := h
  refine ⟨u, made, prepared, ?_⟩
  rw [executeStage_of_reports ⟨r, made, registered, prepared, run⟩, has_congr hfind]

theorem Fresh.has_eq_false {made : FileTree} (h : Fresh i world.files)
    (prepared : Prepared i world u made) : u.files.has i.output = false := by
  refine has_of_none ?_
  rw [prepared.confined.here, prepared.confined.get?_eq h.conf h.way]
  exact h.none

structure Supervised (registry : Registry (Runner σ)) (i : Invocation) (world : World σ) :
    Prop where
  done_iff : ∀ v, executeStage registry i world = (.done (), v) ↔
    ∃ u, Reports registry i world u v ∧ v.files.has i.output = true
  /-- Where nothing was before, success means that the runner has made what is there. -/
  made : ∀ v, Fresh i world.files → executeStage registry i world = (.done (), v) →
    ∃ u, Reports registry i world u v ∧ u.files.has i.output = false ∧ v.files.has i.output = true
  caught : ∀ v, Fresh i world.files → Silent registry i world v →
    executeStage registry i world = (.failed (.missingOutput i.stage i.output), v)
  /-- What is left from earlier stands for the result. -/
  missed : ∀ v, world.files.has i.output = true → Silent registry i world v →
    executeStage registry i world = (.done (), v)
  /-- A stage of a chain that leaves no result is noticed exactly if there is none from earlier. -/
  chained : ∀ s p dir v, Sited s p i → IsOutput p.2 → DirectoryAt world.files s.dir dir →
    Silent registry i world v → executeStage registry i world =
      (if (world.files.get? (dir ++ [p.2])).isSome then .done ()
        else .failed (.missingOutput i.stage i.output), v)

theorem supervised (registry : Registry (Runner σ)) (i : Invocation) (world : World σ) :
    Supervised registry i world where
  done_iff _ := executeStage_done_iff
  made v fresh hdone := by
    obtain ⟨u, ⟨r, made, registered, prepared, run⟩, hhas⟩ := executeStage_done_iff.1 hdone
    exact ⟨u, ⟨r, made, registered, prepared, run⟩, fresh.has_eq_false prepared, hhas⟩
  caught v fresh silent := by
    obtain ⟨u, made, prepared, heq⟩ := silent.exists_prepared
    rw [heq, fresh.has_eq_false prepared]
    rfl
  missed v before silent := by
    obtain ⟨u, made, prepared, heq⟩ := silent.exists_prepared
    rw [heq, prepared.has before]
    rfl
  chained s p dir v sited isOutput directory silent := by
    obtain ⟨u, made, prepared, heq⟩ := silent.exists_prepared
    have htouches := Prepared.touches_work sited directory prepared
    have hlocate := (htouches.directoryAt directory).locate_join isOutput.isName isOutput.fits
    have hapart : ¬ dir ++ [i.stage.dirName] <+: dir ++ [p.2] := by
      simpa [List.prefix_append_right_inj] using (isOutput.ne_dirName i.stage).symm
    have hhas := has_of_locate hlocate
    rw [← sited.output, htouches.same _ hapart, ← Option.isSome_iff_ne_none] at hhas
    rw [heq]
    simp only [hhas]

def idle : Runner σ := fun _ => pure ()

/-- A stage that does nothing is done if there is a file from earlier, and only then. -/
theorem stale_output_passes :
    let registry : Registry (Runner Unit) := Registry.empty.register .weaver idle
    let i : Invocation := ⟨.weaver, [], ⟨"/in.json"⟩, ⟨"/out.json"⟩, ⟨"/work"⟩, none, none⟩
    let fresh := FileTree.empty.put ["in.json"] (.file "{}".toUTF8)
    let stale := fresh.put ["out.json"] (.file "old".toUTF8)
    (executeStage registry i ⟨stale, ⟨0⟩, none, ()⟩).1.isDone = true ∧
      (executeStage registry i ⟨fresh, ⟨0⟩, none, ()⟩).1.isDone = false := by
  decide +kernel

end Pipeline
end TaskGen
