import TaskGen.Pipeline
import TaskGen.Proofs.FileTree.Contents

/-!
A chain of stages that do their work.  All results of a chain and all working directories of its
stages are in one directory.  No name of a result is that of a working directory, so no stage is in
the way of another one.

Main statement: `runChain_done`.
-/

namespace TaskGen

namespace FileTree

def Readable (t : FileTree) (p : Path) : Prop := ∃ bytes, t.read p = .ok bytes

variable {t t' : FileTree} {p : Path} {loc : Location}

theorem Readable.of_grown (h : t.Readable p) (hgrown : Grown (fun _ => True) t t') :
    t'.Readable p := by
  obtain ⟨bytes, hread⟩ := h
  exact ⟨bytes, hgrown.read trivial hread⟩

/-- A file that is written can be read, whatever it was before. -/
theorem Readable.put (h : t.Readable p) (free : t.get? loc ≠ some .directory)
    (bytes : ByteArray) : (t.put loc (.file bytes)).Readable p := by
  obtain ⟨old, hread⟩ := h
  obtain ⟨place, hlocate, hget⟩ := exists_of_read hread
  have htouches := touches_put_file free bytes
  have hlocate' := htouches.grown.locate hlocate
  by_cases hplace : place = loc
  · subst hplace
    have hne : place ≠ [] := by
      rintro rfl
      exact free rfl
    exact ⟨bytes, read_of_get? hlocate' (get?_put_self hne t _)⟩
  · exact ⟨old, read_of_get? hlocate' ((htouches.same place hplace).trans hget)⟩

theorem Readable.exists_file (h : t.Readable p) (hlocate : t.locate p = .ok loc) :
    ∃ bytes, t.get? loc = some (.file bytes) := by
  obtain ⟨bytes, hread⟩ := h
  obtain ⟨place, hplace, hget⟩ := exists_of_read hread
  rw [hlocate] at hplace
  cases hplace
  exact ⟨bytes, hget⟩

end FileTree

open FileTree

namespace Pipeline

variable {σ : Type}

/-! ### Actions on files -/

def withFiles (world : World σ) (files : FileTree) : World σ := { world with files }

theorem io_makeDirs_done {world : World σ} {p : Path} {files : FileTree}
    (h : world.files.makeDirs p = (files, .ok ())) :
    io (Act.makeDirs p) world = (.done (), withFiles world files) := by
  rw [io, Act.mapError, Act.makeDirs, h]
  rfl

theorem io_makeDirs_failed {world : World σ} {p : Path} {files : FileTree} {e : FileError}
    (h : world.files.makeDirs p = (files, .error e)) :
    io (Act.makeDirs p) world = (.failed .io, withFiles world files) := by
  rw [io, Act.mapError, Act.makeDirs, h]
  rfl

theorem io_change_done {world : World σ} {f : FileTree → Except FileError FileTree}
    {files : FileTree} (h : f world.files = .ok files) :
    io (Act.change f) world = (.done (), withFiles world files) := by
  rw [io, Act.mapError, Act.change, h]
  rfl

theorem io_change_failed {world : World σ} {f : FileTree → Except FileError FileTree}
    {e : FileError} (h : f world.files = .error e) :
    io (Act.change f) world = (.failed .io, world) := by
  rw [io, Act.mapError, Act.change, h]

theorem bind_of_done {ε α β : Type} {a : Act σ ε α} {w v : World σ} {result : α}
    (h : a w = (.done result, v)) (next : α → Act σ ε β) : (a >>= next) w = next result v :=
  Act.andThen_of_done h

theorem bind_of_failed {ε α β : Type} {a : Act σ ε α} {w v : World σ} {e : ε}
    (h : a w = (.failed e, v)) (next : α → Act σ ε β) : (a >>= next) w = (.failed e, v) := by
  rw [Act.bind_eq_andThen, Act.andThen, h]

theorem writeJson_done {world : World σ} {p : Path} {v : Json.Value} {files : FileTree}
    (h : world.files.write p v.pretty.toUTF8 = .ok files) :
    writeJson p v world = (.done (), withFiles world files) := io_change_done h

theorem writeJson_failed {world : World σ} {p : Path} {v : Json.Value} {e : FileError}
    (h : world.files.write p v.pretty.toUTF8 = .error e) :
    writeJson p v world = (.failed .io, world) := io_change_failed h

/-! ### Names -/

theorem isName_dirName (s : Stage) : IsName s.dirName := by
  cases s <;> exact ⟨⟨by decide, by decide⟩, by decide, by decide⟩

theorem isName_stageConf (s : Stage) : IsName (Workspace.stageConf s) := by
  cases s <;> exact ⟨⟨by decide, by decide⟩, by decide, by decide⟩

theorem fits_dirName (s : Stage) : Fits s.dirName := by
  cases s <;> exact ⟨by decide, by decide⟩

theorem fits_stageConf (s : Stage) : Fits (Workspace.stageConf s) := by
  cases s <;> exact ⟨by decide, by decide⟩

inductive IsOutput : String → Prop where
  | models : IsOutput Workspace.abstractTasks
  | stage (s : Stage) : IsOutput (Workspace.stageOutput s)

variable {output : String}

theorem IsOutput.isName (h : IsOutput output) : IsName output := by
  cases h with
  | models => exact ⟨⟨by decide, by decide⟩, by decide, by decide⟩
  | stage s => cases s <;> exact ⟨⟨by decide, by decide⟩, by decide, by decide⟩

theorem IsOutput.fits (h : IsOutput output) : Fits output := by
  cases h with
  | models => exact ⟨by decide, by decide⟩
  | stage s => cases s <;> exact ⟨by decide, by decide⟩

theorem IsOutput.ne_initialTask (h : IsOutput output) : output ≠ Workspace.initialTask := by
  cases h with
  | models => decide
  | stage s => cases s <;> decide

theorem IsOutput.ne_dirName (h : IsOutput output) (s : Stage) : output ≠ s.dirName := by
  cases h with
  | models => cases s <;> decide
  | stage s' => cases s' <;> cases s <;> decide

/-! ### One stage -/

/-- A runner that does its work.  If it can read what it is given and write what it is asked for,
it does so, and it changes nothing but its result and what is in its working directory. -/
def Reliable (r : Runner σ) : Prop :=
  ∀ (i : Invocation) (world : World σ) (work : Location), world.files.Readable i.input →
    DirectoryAt world.files i.workDir work → world.files.Readable i.confPath →
    (∃ files, world.files.write i.output .empty = .ok files) →
    ∃ world', r i world = (.done (), world') ∧ world'.files.Readable i.output ∧
      Touches (fun loc => loc = placeOf world.files.here i.output ∨
          work <+: loc ∧ loc ≠ work ∧ loc ≠ placeOf world.files.here i.confPath)
        world.files world'.files

def Made (dir : Location) (p : ConfiguredStage × String) (loc : Location) : Prop :=
  loc = dir ++ [p.2] ∨ dir ++ [p.1.stage.dirName] <+: loc

structure Ready (files : FileTree) (dir : Location) (p : ConfiguredStage × String) : Prop where
  output : files.get? (dir ++ [p.2]) ≠ some .directory
  work : files.Passable (dir ++ [p.1.stage.dirName])
  conf : files.get? (dir ++ [p.1.stage.dirName, Workspace.stageConf p.1.stage]) ≠ some .directory

theorem has_of_readable {files : FileTree} {p : Path} (h : files.Readable p) :
    files.has p = true := by
  obtain ⟨bytes, hread⟩ := h
  obtain ⟨place, hlocate, hget⟩ := exists_of_read hread
  simp [has, find, hlocate, hget, bind, Except.bind]

theorem checkOutput_done {i : Invocation} {world : World σ} (h : world.files.Readable i.output) :
    checkOutput i world = (.done (), world) := by
  unfold checkOutput
  rw [bind_of_done (a := Act.files) rfl, has_of_readable h, if_pos rfl]
  rfl

structure Equipped (files files' : FileTree) (work : Location) (i : Invocation) : Prop where
  directory : DirectoryAt files' i.workDir work
  conf : ∃ bytes, files'.get? (work ++ [Workspace.stageConf i.stage]) = some (.file bytes)
  touches : Touches (work <+: ·) files files'
  readable : ∀ p, files.Readable p → files'.Readable p

section
variable {registry : Registry (Runner σ)} {s : Setting} {c : ConfiguredStage} {world : World σ}
  {dir : Location} {input : Path}

theorem exists_equipped {files : FileTree} {i : Invocation}
    (workDir : i.workDir = s.dir.join i.stage.dirName) (directory : DirectoryAt files s.dir dir)
    (free : files.Passable (dir ++ [i.stage.dirName]))
    (conf : files.get? (dir ++ [i.stage.dirName, Workspace.stageConf i.stage]) ≠ some .directory) :
    ∃ made files', files.makeDirs i.workDir = (made, .ok ()) ∧
      made.write i.confPath i.conf.pretty.toUTF8 = .ok files' ∧
      Equipped files files' (dir ++ [i.stage.dirName]) i := by
  have hconf := isName_stageConf i.stage
  let work := dir ++ [i.stage.dirName]
  let place := work ++ [Workspace.stageConf i.stage]
  have hplace : place = dir ++ [i.stage.dirName, Workspace.stageConf i.stage] := by
    simp [place, work]
  obtain ⟨hmake, hwork⟩ := makeDirs_join_of_fits directory.makeDirs directory
    (isName_dirName i.stage) (fits_dirName i.stage) free
  rw [← workDir] at hmake hwork
  have hmade : Touches (· = work) files (files.ensure work) := touches_ensure _ _
  have hfree : (files.ensure work).get? place ≠ some .directory := by
    rw [hmade.same place (by simp [place]), hplace]
    exact conf
  have hwritten : Touches (· = place) (files.ensure work)
      ((files.ensure work).put place (.file i.conf.pretty.toUTF8)) := touches_put_file hfree _
  have hgrown : Grown (fun _ => True) files _ := grown_makeDirs files i.workDir
  rw [hmake] at hgrown
  refine ⟨_, _, hmake, hwork.write_join hconf (fits_stageConf i.stage) hfree _,
    hwritten.directoryAt hwork, ⟨_, get?_put_self (by simp) _ _⟩, ?_,
    fun p hp => (hp.of_grown hgrown).put hfree _⟩
  refine (hmade.mono fun loc hloc => ?_).trans (hwritten.mono fun loc hloc => ?_)
  · rw [hloc]
  · rw [hloc]
    exact List.prefix_append _ _

structure Sited (s : Setting) (p : ConfiguredStage × String) (i : Invocation) : Prop where
  stage : i.stage = p.1.stage
  workDir : i.workDir = s.dir.join i.stage.dirName
  output : i.output = s.dir.join p.2

theorem executeStage_done {p : ConfiguredStage × String} {i : Invocation} (sited : Sited s p i)
    {r : Runner σ} (registered : registry p.1.stage = some r) (reliable : Reliable r)
    (isOutput : IsOutput p.2) (directory : DirectoryAt world.files s.dir dir)
    (ready : Ready world.files dir p) (readable : world.files.Readable i.input) :
    ∃ world', executeStage registry i world = (.done (), world') ∧
      world'.files.Readable i.output ∧ Touches (Made dir p) world.files world'.files ∧
      Ready world'.files dir p := by
  have hstage := sited.stage
  rw [← hstage] at registered
  have hwork := ready.work
  have hconfFree := ready.conf
  rw [← hstage] at hwork hconfFree
  obtain ⟨made, files, hmake, hwrite, hequipped⟩ :=
    exists_equipped sited.workDir directory hwork hconfFree
  have hdirectory := hequipped.touches.directoryAt directory
  have hlocate := hdirectory.locate_join isOutput.isName isOutput.fits
  have hfree : files.get? (dir ++ [p.2]) ≠ some .directory := by
    have hapart : ¬ dir ++ [i.stage.dirName] <+: dir ++ [p.2] := by
      simpa [List.prefix_append_right_inj] using (isOutput.ne_dirName i.stage).symm
    rw [hequipped.touches.same _ hapart]
    exact ready.output
  have hresultFree := hdirectory.write_join isOutput.isName isOutput.fits hfree .empty
  rw [← sited.output] at hlocate hresultFree
  obtain ⟨bytes, hconf⟩ := hequipped.conf
  have hconfLocate := hequipped.directory.locate_join (isName_stageConf i.stage)
    (fits_stageConf i.stage)
  have hconfRead : files.Readable i.confPath := ⟨bytes, read_of_get? hconfLocate hconf⟩
  obtain ⟨world', hrun, hresult, htouches⟩ := reliable i (withFiles world files) _
    (hequipped.readable i.input readable) hequipped.directory hconfRead ⟨_, hresultFree⟩
  have hall : Touches (Made dir p) world.files world'.files := by
    refine (hequipped.touches.mono fun loc hloc => .inr (hstage ▸ hloc)).trans
      (htouches.mono fun loc hloc => ?_)
    rcases hloc with hloc | ⟨hloc, _⟩
    · exact .inl (hloc.trans (locate_eq_placeOf hlocate).symm)
    · exact .inr (hstage ▸ hloc)
  refine ⟨world', ?_, hresult, hall, ?_, ?_, ?_⟩
  · have hrunner : (Act.ofExcept (registry.get i.stage) : Act σ StageError (Runner σ)) world =
        (.done r, world) := by
      rw [Registry.get, registered]
      rfl
    have hmade := io_makeDirs_done hmake
    have hwritten : writeJson i.confPath i.conf (withFiles world made) =
        (.done (), withFiles world files) := writeJson_done hwrite
    rw [executeStage, bind_of_done hrunner, bind_of_done hmade, bind_of_done hwritten,
      bind_of_done hrun]
    exact checkOutput_done hresult
  · have hplace := (hall.directoryAt directory).locate_join isOutput.isName isOutput.fits
    rw [← sited.output] at hplace
    obtain ⟨result, hfile⟩ := hresult.exists_file hplace
    rw [hfile]
    simp
  · rw [← hstage]
    exact passable_of_directory (htouches.directory _ hequipped.directory.directory)
  · have hkept : world'.files.get? (dir ++ [i.stage.dirName] ++ [Workspace.stageConf i.stage]) =
        some (.file bytes) := by
      refine (htouches.same _ fun hloc => ?_).trans hconf
      rcases hloc with hloc | ⟨_, _, hloc⟩
      · have hlength := congrArg List.length (hloc.trans (locate_eq_placeOf hlocate).symm)
        simp at hlength
      · exact hloc (locate_eq_placeOf hconfLocate)
    rw [List.append_assoc] at hkept
    rw [← hstage, show [i.stage.dirName, Workspace.stageConf i.stage] =
      [i.stage.dirName] ++ [Workspace.stageConf i.stage] from rfl, hkept]
    simp

end

/-! ### Chains -/

theorem dirName_injective {s s' : Stage} (h : s.dirName = s'.dirName) : s = s' := by
  cases s <;> cases s' <;> first | rfl | simp [Stage.dirName] at h

section
variable {dir : Location} {p q : ConfiguredStage × String} {files files' : FileTree}

theorem made_iff (name : String) (rest : List String) : Made dir p (dir ++ name :: rest) ↔
    name = p.2 ∧ rest = [] ∨ name = p.1.stage.dirName := by
  unfold Made
  rw [List.append_right_inj, List.prefix_append_right_inj, List.cons_prefix_cons, List.cons.injEq]
  simp [eq_comm]

theorem made_result_iff (h : IsOutput output) : Made dir p (dir ++ [output]) ↔ output = p.2 := by
  simp [made_iff, h.ne_dirName p.1.stage]

theorem made_work_iff (hp : IsOutput p.2) (s : Stage) (rest : List String) :
    Made dir p (dir ++ s.dirName :: rest) ↔ s = p.1.stage := by
  rw [made_iff]
  constructor
  · rintro (⟨hresult, _⟩ | hwork)
    · exact (hp.ne_dirName s hresult.symm).elim
    · exact dirName_injective hwork
  · rintro rfl
    exact .inr rfl

/-- What a stage makes is in nobody's way. -/
theorem Ready.keep (h : Ready files dir q) (touches : Touches (Made dir p) files files')
    (self : Ready files' dir p) (hp : IsOutput p.2) (hq : IsOutput q.2) : Ready files' dir q := by
  have houtput : files'.get? (dir ++ [q.2]) ≠ some .directory := by
    by_cases hsame : q.2 = p.2
    · rw [hsame]
      exact self.output
    · rw [touches.same _ (mt (made_result_iff hq).1 hsame)]
      exact h.output
  by_cases hstage : q.1.stage = p.1.stage
  · exact ⟨houtput, by rw [hstage]; exact self.work, by rw [hstage]; exact self.conf⟩
  · have hkept := fun rest => touches.same _ (mt (made_work_iff hp q.1.stage rest).1 hstage)
    refine ⟨houtput, fun bytes => ?_, ?_⟩
    · rw [hkept]
      exact h.work bytes
    · rw [hkept]
      exact h.conf

/-- What a chain leaves behind: all results, and nothing outside the working directories. -/
structure Chained (files files' : FileTree) (dir : Location)
    (chain : List (ConfiguredStage × String)) : Prop where
  touches : Touches (fun loc => ∃ p ∈ chain, Made dir p loc) files files'
  results : ∀ p ∈ chain, ∃ bytes, files'.get? (dir ++ [p.2]) = some (.file bytes)

/-- What no stage of a chain uses is as it was. -/
theorem Chained.get?_eq {chain : List (ConfiguredStage × String)}
    (h : Chained files files' dir chain) {name : String}
    (free : ∀ p ∈ chain, name ≠ p.2 ∧ name ≠ p.1.stage.dirName) (rest : List String) :
    files'.get? (dir ++ name :: rest) = files.get? (dir ++ name :: rest) := by
  refine h.touches.same _ ?_
  rintro ⟨p, hp, hmade⟩
  obtain ⟨hresult, hwork⟩ := free p hp
  rcases (made_iff name rest).1 hmade with ⟨hname, _⟩ | hname
  · exact hresult hname
  · exact hwork hname

theorem runChain_done {registry : Registry (Runner σ)} {s : Setting}
    {chain : List (ConfiguredStage × String)}
    (reliable : ∀ p ∈ chain, ∃ r, registry p.1.stage = some r ∧ Reliable r)
    (outputs : ∀ p ∈ chain, IsOutput p.2) (world : World σ) {input : Path}
    (directory : DirectoryAt world.files s.dir dir) (ready : ∀ p ∈ chain, Ready world.files dir p)
    (readable : world.files.Readable input) :
    ∃ last world', runChain registry s chain input world = (.done last, world') ∧
      world'.files.Readable last ∧ Chained world.files world'.files dir chain := by
  induction chain generalizing world input with
  | nil =>
    refine ⟨input, world, rfl, readable, .refl _ _, fun p hp => ?_⟩
    cases hp
  | cons p chain ih =>
    obtain ⟨c, output⟩ := p
    obtain ⟨r, hregistered, hr⟩ := reliable _ List.mem_cons_self
    have houtput := outputs _ List.mem_cons_self
    have houtputs := fun q hq => outputs q (List.mem_cons_of_mem _ hq)
    obtain ⟨first, hfirst, hresult, htouches, hself⟩ := executeStage_done
      (p := (c, output)) (i := s.invocation c input output) ⟨rfl, rfl, rfl⟩ hregistered hr houtput
      directory (ready _ List.mem_cons_self) readable
    have hdirectory := htouches.directoryAt directory
    obtain ⟨last, world', hrest, hlast, hchained⟩ := ih
      (fun q hq => reliable q (List.mem_cons_of_mem _ hq)) houtputs _ hdirectory
      (fun q hq => (ready q (List.mem_cons_of_mem _ hq)).keep htouches hself houtput
        (houtputs q hq)) hresult
    refine ⟨last, world', ?_, hlast, ?_, fun q hq => ?_⟩
    · rw [runChain, bind_of_done hfirst]
      exact hrest
    · refine (htouches.mono fun loc hloc => ?_).trans (hchained.touches.mono fun loc hloc => ?_)
      · exact ⟨_, List.mem_cons_self, hloc⟩
      · obtain ⟨q, hq, hmade⟩ := hloc
        exact ⟨q, List.mem_cons_of_mem _ hq, hmade⟩
    · by_cases hlater : ∃ q' ∈ chain, q'.2 = q.2
      · obtain ⟨q', hq', hsame⟩ := hlater
        rw [← hsame]
        exact hchained.results q' hq'
      · rcases List.mem_cons.1 hq with rfl | hq
        · have hkept : ¬ ∃ q' ∈ chain, Made dir q' (dir ++ [output]) := by
            rintro ⟨q', hq', hmade⟩
            exact hlater ⟨q', hq', ((made_result_iff houtput).1 hmade).symm⟩
          rw [hchained.touches.same _ hkept]
          exact hresult.exists_file (hdirectory.locate_join houtput.isName houtput.fits)
        · exact hchained.results q hq

end

end Pipeline
end TaskGen
