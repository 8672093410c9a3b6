import TaskGen.Proofs.Coincidences.Names
import TaskGen.Proofs.EnvModels

/-!
Models with any names.  A model can be stored unless its name is one that no file can have, or that
of a file which the abstract task has already.  Generation fails if one model cannot be stored.

Main statement: `EnvModels.exists_generated`.
-/

namespace TaskGen

open FileTree

namespace EnvModels

open Pipeline Workspace

variable {σ : Type} {w : Workspace} {id : AbstractTaskId}

structure Storable (files : FileTree) (dir : Location) (model : String) : Prop where
  fits : Fits (escape model)
  directory : files.Passable (dir ++ [escape model])
  artifact : files.get? (dir ++ [escape model, initialTask]) ≠ some .directory

section
variable {world : World σ} {dir : Location} {model : String} (description : Json.Value)

theorem store_eq_done {made files : FileTree}
    (make : world.files.makeDirs (w.modelDir id model) = (made, .ok ()))
    (write : made.write ((w.modelDir id model).join initialTask) description.pretty.toUTF8 =
      .ok files) :
    store w id model description world = (.done (modelOf w id model), withFiles world files) := by
  have hmade := io_makeDirs_done make
  have hwritten : writeJson ((w.modelDir id model).join initialTask) description
      (withFiles world made) = (.done (), withFiles world files) := writeJson_done write
  rw [store, bind_of_done hmade, bind_of_done hwritten]
  rfl

theorem store_eq_failed {made : FileTree} {e : FileError}
    (make : world.files.makeDirs (w.modelDir id model) = (made, .ok ()))
    (write : made.write ((w.modelDir id model).join initialTask) description.pretty.toUTF8 =
      .error e) :
    store w id model description world = (.failed .io, withFiles world made) := by
  have hmade := io_makeDirs_done make
  have hrefused : writeJson ((w.modelDir id model).join initialTask) description
      (withFiles world made) = (.failed .io, withFiles world made) := writeJson_failed write
  rw [store, bind_of_done hmade, bind_of_failed hrefused]

theorem store_done (directory : DirectoryAt world.files (w.abstractDir id) dir)
    (storable : Storable world.files dir model) :
    ∃ world', store w id model description world = (.done (modelOf w id model), world') ∧
      Touches (dir ++ [escape model] <+: ·) world.files world'.files ∧
      Storable world'.files dir model := by
  let place := dir ++ [escape model]
  obtain ⟨hmake, hplace⟩ := makeDirs_join_of_fits directory.makeDirs directory
    (isName_escape model) storable.fits storable.directory
  have hmade : Touches (· = place) world.files (world.files.ensure place) := touches_ensure _ _
  have hartifact : dir ++ [escape model, initialTask] = place ++ [initialTask] := by simp [place]
  have hfree : (world.files.ensure place).get? (place ++ [initialTask]) ≠ some .directory := by
    rw [hmade.same _ (by simp), ← hartifact]
    exact storable.artifact
  have hwrite := hplace.write_join isName_initialTask fits_initialTask hfree
    description.pretty.toUTF8
  have hwritten := touches_put_file hfree description.pretty.toUTF8
  refine ⟨_, store_eq_done description hmake hwrite, ?_, storable.fits, ?_, ?_⟩
  · refine (hmade.mono fun loc hloc => ?_).trans (hwritten.mono fun loc hloc => ?_)
    · rw [hloc]
    · rw [hloc]
      exact List.prefix_append _ _
  · exact passable_of_directory (hwritten.directory place hplace.directory)
  · rw [hartifact]
    have hne : place ++ [initialTask] ≠ [] := by simp
    have hfile := get?_put_self hne (world.files.ensure place) (.file description.pretty.toUTF8)
    rw [withFiles, hfile]
    simp

theorem store_failed (directory : DirectoryAt world.files (w.abstractDir id) dir)
    (blocked : ¬ Storable world.files dir model) :
    ∃ world', store w id model description world = (.failed .io, world') := by
  by_cases hmake : Fits (escape model) ∧ world.files.Passable (dir ++ [escape model])
  · obtain ⟨hfits, hfree⟩ := hmake
    obtain ⟨hmake, hplace⟩ := makeDirs_join_of_fits directory.makeDirs directory
      (isName_escape model) hfits hfree
    have hmade := touches_ensure world.files (dir ++ [escape model])
    have hdirectory : world.files.get? (dir ++ [escape model, initialTask]) = some .directory := by
      by_contra hartifact
      exact blocked ⟨hfits, hfree, hartifact⟩
    have hkept := hmade.directory _ hdirectory
    rw [show dir ++ [escape model, initialTask] = dir ++ [escape model] ++ [initialTask] by simp]
      at hkept
    have hrefused := hplace.write_join_refused isName_initialTask fits_initialTask hkept
      description.pretty.toUTF8
    exact ⟨_, store_eq_failed description hmake hrefused⟩
  · have hblocked : ¬ Fits (escape model) ∨ ¬ world.files.Passable (dir ++ [escape model]) :=
      not_and_or.1 hmake
    obtain ⟨e, hfailed | hfailed⟩ :=
      makeDirs_join_error directory.makeDirs directory (isName_escape model) hblocked
    · exact ⟨_, bind_of_failed (io_makeDirs_failed hfailed) _⟩
    · exact ⟨_, bind_of_failed (io_makeDirs_failed hfailed) _⟩

end

section
variable {dir : Location}

theorem Storable.congr {files files' : FileTree} {model : String} (h : Storable files dir model)
    (same : ∀ rest, files'.get? (dir ++ escape model :: rest) =
      files.get? (dir ++ escape model :: rest)) : Storable files' dir model := by
  refine ⟨h.fits, fun bytes => ?_, ?_⟩
  · rw [same]
    exact h.directory bytes
  · rw [same]
    exact h.artifact

/-- A model is in no other model's way. -/
theorem Storable.keep_iff {files files' : FileTree} {model other : String}
    (touches : Touches (dir ++ [escape model] <+: ·) files files')
    (before : Storable files dir model) (after : Storable files' dir model) :
    Storable files' dir other ↔ Storable files dir other := by
  by_cases hsame : other = model
  · subst hsame
    exact ⟨fun _ => before, fun _ => after⟩
  · have hkept : ∀ rest, files'.get? (dir ++ escape other :: rest) =
        files.get? (dir ++ escape other :: rest) := by
      intro rest
      refine touches.same _ fun hprefix => hsame ?_
      rw [List.prefix_append_right_inj, List.cons_prefix_cons] at hprefix
      exact (escape_injective hprefix.1).symm
    exact ⟨fun h => h.congr fun rest => (hkept rest).symm, fun h => h.congr hkept⟩

variable {ps : List (String × Json.Value)} {world : World σ}

theorem storeAll_done (directory : DirectoryAt world.files (w.abstractDir id) dir)
    (storable : ∀ p ∈ ps, Storable world.files dir p.1) :
    ∃ world', storeAll w id ps world = (.done (ps.map fun p => modelOf w id p.1), world') ∧
      Touches (fun loc => ∃ p ∈ ps, dir ++ [escape p.1] <+: loc) world.files world'.files := by
  induction ps generalizing world with
  | nil => exact ⟨world, rfl, .refl _ _⟩
  | cons p ps ih =>
    have hp := storable p List.mem_cons_self
    obtain ⟨first, hfirst, htouches, hafter⟩ := store_done p.2 directory hp
    obtain ⟨last, hlast, htouches'⟩ := ih (htouches.directoryAt directory) fun q hq =>
      (Storable.keep_iff htouches hp hafter).2 (storable q (List.mem_cons_of_mem p hq))
    refine ⟨last, ?_, ?_⟩
    · rw [storeAll, bind_of_done hfirst, bind_of_done hlast]
      rfl
    refine (htouches.mono fun loc hloc => ?_).trans (htouches'.mono fun loc hloc => ?_)
    · exact ⟨p, List.mem_cons_self, hloc⟩
    · obtain ⟨q, hq, hloc⟩ := hloc
      exact ⟨q, List.mem_cons_of_mem p hq, hloc⟩

theorem storeAll_failed (directory : DirectoryAt world.files (w.abstractDir id) dir)
    (blocked : ∃ p ∈ ps, ¬ Storable world.files dir p.1) :
    ∃ world', storeAll w id ps world = (.failed .io, world') := by
  induction ps generalizing world with
  | nil =>
    obtain ⟨p, hp, _⟩ := blocked
    cases hp
  | cons p ps ih =>
    by_cases hp : Storable world.files dir p.1
    · obtain ⟨first, hfirst, htouches, hafter⟩ := store_done p.2 directory hp
      obtain ⟨q, hq, hblocked⟩ := blocked
      have hrest : q ∈ ps := by
        rcases List.mem_cons.1 hq with rfl | hrest
        · exact (hblocked hp).elim
        · exact hrest
      obtain ⟨last, hlast⟩ := ih (htouches.directoryAt directory)
        ⟨q, hrest, mt (Storable.keep_iff htouches hp hafter).1 hblocked⟩
      exact ⟨last, by rw [storeAll, bind_of_done hfirst, bind_of_failed hlast]⟩
    · obtain ⟨first, hfirst⟩ := store_failed p.2 directory hp
      exact ⟨first, by rw [storeAll, bind_of_failed hfirst]⟩

end

/-! ### Generation -/

/-- Nothing of an abstract task is there yet, and its directory can be made. -/
structure Vacant (files : FileTree) (w : Workspace) (id : AbstractTaskId) (root : Location) :
    Prop where
  directory : DirectoryAt files w.root root
  fragment : Fits (escape id.fragment)
  classKey : Fits (escape id.classKey)
  passable : files.Passable (root ++ [escape id.fragment])
  empty : ∀ rest, files.get? (root ++ abstractNames id ++ rest) = none

theorem load_of_grown {files files' : FileTree} {p : Path} {f : Fragment}
    (grown : Grown (fun _ => True) files files') (h : Fragment.load files p = .ok f) :
    Fragment.load files' p = .ok f := by
  cases hread : files.read p with
  | error e => simp [Fragment.load, readText, hread, bind, Except.bind] at h
  | ok bytes =>
    rw [← h]
    simp only [Fragment.load, readText, hread, grown.read trivial hread]

structure Started (files : FileTree) (w : Workspace) (id : AbstractTaskId) (dir : Location) :
    Prop where
  directory : DirectoryAt files (w.abstractDir id) dir
  initial : ∃ bytes, files.get? (dir ++ [initialTask]) = some (.file bytes)
  empty : ∀ name rest, name :: rest ≠ [initialTask] → files.get? (dir ++ name :: rest) = none

theorem Vacant.exists_made {files : FileTree} {root : Location} (h : Vacant files w id root) :
    ∃ made, files.makeDirs (w.abstractDir id) = (made, .ok ()) ∧
      DirectoryAt made (w.abstractDir id) (root ++ abstractNames id) ∧
      ∀ name rest, made.get? (root ++ abstractNames id ++ name :: rest) = none := by
  obtain ⟨hfirst, hfragment⟩ := makeDirs_join_of_fits h.directory.makeDirs h.directory
    (isName_escape id.fragment) h.fragment h.passable
  have hmade := touches_ensure files (root ++ [escape id.fragment])
  have hplace :
      root ++ [escape id.fragment] ++ [escape id.classKey] = root ++ abstractNames id := by
    simp [abstractNames]
  have hnone : ∀ rest, (files.ensure (root ++ [escape id.fragment])).get?
      (root ++ abstractNames id ++ rest) = none := by
    intro rest
    rw [hmade.same _ (by simp [abstractNames]), h.empty]
  have hfree : (files.ensure (root ++ [escape id.fragment])).Passable
      (root ++ [escape id.fragment] ++ [escape id.classKey]) := by
    intro bytes hfile
    rw [hplace, ← List.append_nil (root ++ abstractNames id), hnone] at hfile
    cases hfile
  obtain ⟨hsecond, hdirectory⟩ := makeDirs_join_of_fits hfirst hfragment
    (isName_escape id.classKey) h.classKey hfree
  rw [hplace] at hsecond hdirectory
  refine ⟨_, hsecond, hdirectory, fun name rest => ?_⟩
  rw [(touches_ensure _ _).same _ (by simp), hnone]

theorem start_done {t : AbstractTask} {c : RequirementClass} {world : World σ} {root : Location}
    (vacant : Vacant world.files w t.id root) {f : Fragment}
    (load : Fragment.load world.files t.descriptor = .ok f) :
    ∃ world', start w t c world = (.done ((w.abstractDir t.id).join initialTask), world') ∧
      Started world'.files w t.id (root ++ abstractNames t.id) := by
  obtain ⟨made, hmake, hdirectory, hempty⟩ := vacant.exists_made
  have hgrown : Grown (fun _ => True) world.files _ :=
    grown_makeDirs world.files (w.abstractDir t.id)
  rw [hmake] at hgrown
  have hload := load_of_grown hgrown load
  have hfree : made.get? (root ++ abstractNames t.id ++ [initialTask]) ≠ some .directory := by
    rw [hempty]
    simp
  have hwrite := hdirectory.write_join isName_initialTask fits_initialTask hfree
    (initialDescription f c).pretty.toUTF8
  have hwritten := touches_put_file hfree (initialDescription f c).pretty.toUTF8
  have hfragment : (Act.ofExcept (Fragment.load made t.descriptor)).mapError StageError.fragment
      (withFiles world made) = (.done f, withFiles world made) := by
    rw [hload]
    rfl
  refine ⟨withFiles world _, ?_, hwritten.directoryAt hdirectory,
    ⟨_, get?_put_self (by simp) _ _⟩, fun name rest hne => ?_⟩
  · have hmade := io_makeDirs_done hmake
    have hfiles : (Act.files : Act σ StageError FileTree) (withFiles world made) =
        (.done made, withFiles world made) := rfl
    have hwritten : writeJson ((w.abstractDir t.id).join initialTask) (initialDescription f c)
        (withFiles world made) = (.done (), _) := writeJson_done hwrite
    rw [start, bind_of_done hmade, bind_of_done hfiles, bind_of_done hfragment,
      bind_of_done hwritten]
    rfl
  · exact (hwritten.same _ (by simpa using hne)).trans (hempty name rest)

theorem mem_outputs {cs : List ConfiguredStage} {p : ConfiguredStage × String}
    (h : p ∈ outputs cs) : p.1 ∈ cs ∧ IsOutput p.2 := by
  induction cs with
  | nil => cases h
  | cons c cs ih =>
    cases cs with
    | nil =>
      rw [List.mem_singleton.1 h]
      exact ⟨List.mem_singleton_self c, .models⟩
    | cons c' cs =>
      rcases List.mem_cons.1 h with rfl | hrest
      · exact ⟨List.mem_cons_self, .stage c.stage⟩
      · obtain ⟨hmem, houtput⟩ := ih hrest
        exact ⟨List.mem_cons_of_mem c hmem, houtput⟩

def parsed? (bytes : ByteArray) : Option Json.Value :=
  (String.fromUTF8? bytes).bind Json.Value.ofString?

section
variable {world : World σ} {p : Path} {bytes : ByteArray}

theorem readDescriptions_done (read : world.files.read p = .ok bytes) {v : Json.Value}
    (h : parsed? bytes = some v) :
    readDescriptions p world = (.done (descriptions v), world) := by
  have hread : io (Act.inspect fun files => files.read p) world = (.done bytes, world) := by
    rw [io, Act.mapError, Act.inspect, read]
    rfl
  rw [readDescriptions, bind_of_done hread]
  rw [parsed?] at h
  simp only [h]
  rfl

theorem readDescriptions_failed (read : world.files.read p = .ok bytes)
    (h : parsed? bytes = none) : readDescriptions p world = (.failed .json, world) := by
  have hread : io (Act.inspect fun files => files.read p) world = (.done bytes, world) := by
    rw [io, Act.mapError, Act.inspect, read]
    rfl
  rw [readDescriptions, bind_of_done hread]
  rw [parsed?] at h
  simp only [h]
  rfl

end

def UsesFile (c : RequirementClass) (name : String) : Prop :=
  name = initialTask ∨ ∃ p ∈ outputs c.sharedStages, name = p.2

/-- The files of an abstract task and the working directories of its stages. -/
def Uses (c : RequirementClass) (name : String) : Prop :=
  UsesFile c name ∨ ∃ s ∈ c.sharedStages, name = s.stage.dirName

theorem Uses.isFixed {c : RequirementClass} {name : String} (h : Uses c name) : IsFixed name := by
  rcases h with (rfl | ⟨p, hp, rfl⟩) | ⟨s, _, rfl⟩
  · exact .initial
  · exact .result (mem_outputs hp).2
  · exact .work s.stage

/-- What generation comes to after the shared stages, by the names of the models. -/
structure Generated (registry : Registry (Runner σ)) (w : Workspace) (t : AbstractTask)
    (c : RequirementClass) (world ran : World σ) (bytes : ByteArray) : Prop where
  unread : parsed? bytes = none → generate registry w t c world = (.failed .json, ran)
  /-- Names that are free can be kept. -/
  stored : ∀ v, parsed? bytes = some v →
    (∀ n ∈ names (descriptions v), Fits (escape n) ∧ ¬ Uses c n) →
    ∃ world', generate registry w t c world =
        (.done ((names (descriptions v)).map (modelOf w t.id)), world') ∧
      ∀ name, Uses c name → ∀ loc,
        placeOf world.files.here ((w.abstractDir t.id).join name) <+: loc →
        world'.files.get? loc = ran.files.get? loc
  /-- Nothing is stored over a file, or under a name that no file can have. -/
  refused : ∀ v, parsed? bytes = some v →
    (∃ n ∈ names (descriptions v), ¬ Fits (escape n) ∨ UsesFile c n) →
    ∃ world', generate registry w t c world = (.failed .io, world')

section
variable {c : RequirementClass} {dir : Location} {files files' : FileTree}

theorem Started.ready (h : Started files w id dir) {p : ConfiguredStage × String}
    (hp : IsOutput p.2) : Ready files dir p := by
  have hwork : p.1.stage.dirName ≠ initialTask := by cases p.1.stage <;> decide
  refine ⟨?_, fun bytes hfile => ?_, ?_⟩
  · rw [h.empty p.2 [] (by simpa using IsOutput.ne_initialTask hp)]
    simp
  · rw [h.empty _ [] (by simpa using hwork)] at hfile
    cases hfile
  · rw [h.empty _ _ (by simp)]
    simp

/-- A name that is free leads to nothing. -/
theorem storable_of_not_uses (started : Started files w id dir)
    (chained : Chained files files' dir (outputs c.sharedStages)) {n : String}
    (fits : Fits (escape n)) (free : ¬ Uses c n) : Storable files' dir n := by
  have hapart : ∀ p ∈ outputs c.sharedStages, escape n ≠ p.2 ∧ escape n ≠ p.1.stage.dirName := by
    intro p hp
    obtain ⟨hmem, houtput⟩ := mem_outputs hp
    rw [ne_eq, ne_eq, (IsFixed.result houtput).escape_iff, (IsFixed.work _).escape_iff]
    exact ⟨fun hname => free (.inl (.inr ⟨p, hp, hname⟩)),
      fun hname => free (.inr ⟨p.1, hmem, hname⟩)⟩
  have hinitial : escape n ≠ initialTask := by
    rw [ne_eq, IsFixed.initial.escape_iff]
    exact fun hname => free (.inl (.inl hname))
  have hnone : ∀ rest, files'.get? (dir ++ escape n :: rest) = none := by
    intro rest
    rw [chained.get?_eq hapart, started.empty _ _ (by simp [hinitial])]
  refine ⟨fits, fun bytes hfile => ?_, ?_⟩
  · rw [hnone] at hfile
    cases hfile
  · rw [hnone]
    simp

theorem not_storable_of_usesFile (started : Started files w id dir)
    (chained : Chained files files' dir (outputs c.sharedStages)) {n : String}
    (h : UsesFile c n) : ¬ Storable files' dir n := by
  intro hstorable
  have hescape : escape n = n := Uses.isFixed (.inl h) |>.escape_eq
  have hpassable := hstorable.directory
  rw [hescape] at hpassable
  rcases h with rfl | ⟨p, hp, rfl⟩
  · obtain ⟨bytes, hfile⟩ := started.initial
    have hapart : ∀ p ∈ outputs c.sharedStages,
        initialTask ≠ p.2 ∧ initialTask ≠ p.1.stage.dirName := by
      intro p hp
      refine ⟨(IsOutput.ne_initialTask (mem_outputs hp).2).symm, ?_⟩
      cases p.1.stage <;> decide
    rw [← chained.get?_eq hapart] at hfile
    exact hpassable bytes hfile
  · obtain ⟨bytes, hfile⟩ := chained.results p hp
    exact hpassable bytes hfile

end

theorem map_fst_zip_names (ds : List Json.Value) :
    ((names ds).zip ds).map Prod.fst = names ds :=
  List.map_fst_zip (Nat.le_of_eq (length_names ds))

theorem map_modelOf_zip (w : Workspace) (id : AbstractTaskId) (ds : List Json.Value) :
    ((names ds).zip ds).map (fun p => modelOf w id p.1) = (names ds).map (modelOf w id) := by
  conv_rhs => rw [← map_fst_zip_names ds]
  rw [List.map_map]
  rfl

/-- Where an abstract task has something with a fixed name. -/
theorem placeOf_fixed {files : FileTree} {root : Location}
    (directory : DirectoryAt files w.root root) {name : String} (fixed : IsFixed name)
    (id : AbstractTaskId) :
    placeOf files.here ((w.abstractDir id).join name) = root ++ abstractNames id ++ [name] := by
  have hplace := placeOf_descend (isName_append (isName_abstractNames id) fixed.isName)
    files.here w.root
  rw [← directory.placeOf, ← List.append_assoc] at hplace
  exact hplace

theorem exists_generated {registry : Registry (Runner σ)}
    (reliable : ∀ s r, registry s = some r → Reliable r) {t : AbstractTask} {c : RequirementClass}
    {world : World σ} {root : Location} (vacant : Vacant world.files w t.id root) {f : Fragment}
    (load : Fragment.load world.files t.descriptor = .ok f) (shared : c.sharedStages ≠ [])
    (registered : ∀ s ∈ c.sharedStages, (registry s.stage).isSome = true) :
    ∃ initial started last ran bytes, start w t c world = (.done initial, started) ∧
      runChain registry ⟨w.abstractDir t.id, none, none⟩ (outputs c.sharedStages) initial started =
        (.done last, ran) ∧
      ran.files.read last = .ok bytes ∧ Generated registry w t c world ran bytes := by
  obtain ⟨started, hstart, hstarted⟩ := start_done (c := c) vacant load
  have hinitial : started.files.Readable ((w.abstractDir t.id).join initialTask) := by
    obtain ⟨bytes, hfile⟩ := hstarted.initial
    exact ⟨bytes, hstarted.directory.read_join isName_initialTask fits_initialTask hfile⟩
  have hreliable : ∀ p ∈ outputs c.sharedStages,
      ∃ r, registry p.1.stage = some r ∧ Reliable r := by
    intro p hp
    obtain ⟨r, hr⟩ := Option.isSome_iff_exists.1 (registered p.1 (mem_outputs hp).1)
    exact ⟨r, hr, reliable _ r hr⟩
  obtain ⟨last, ran, hran, ⟨bytes, hbytes⟩, hchained⟩ := runChain_done
    (s := ⟨w.abstractDir t.id, none, none⟩) hreliable (fun p hp => (mem_outputs hp).2) started
    hstarted.directory
    (fun p hp => hstarted.ready (mem_outputs hp).2) hinitial
  have hdirectory := hchained.touches.directoryAt hstarted.directory
  have hgenerate : generate registry w t c world =
      (readDescriptions last >>= fun found => storeAll w t.id ((names found).zip found)) ran := by
    rw [generate, bind_of_done hstart, if_neg (by simpa using shared), bind_of_done hran]
  refine ⟨_, started, last, ran, bytes, hstart, hran, hbytes, fun hunread => ?_,
    fun v hv hfree => ?_, fun v hv hblocked => ?_⟩
  · rw [hgenerate]
    exact bind_of_failed (readDescriptions_failed hbytes hunread) _
  · have hmem : ∀ p ∈ (names (descriptions v)).zip (descriptions v),
        p.1 ∈ names (descriptions v) := by
      intro p hp
      rw [← map_fst_zip_names]
      exact List.mem_map_of_mem hp
    obtain ⟨world', hstored, htouches⟩ := storeAll_done hdirectory fun p hp =>
      storable_of_not_uses hstarted hchained (hfree p.1 (hmem p hp)).1 (hfree p.1 (hmem p hp)).2
    refine ⟨world', ?_, fun name huses loc hloc => htouches.same loc ?_⟩
    · rw [hgenerate, bind_of_done (readDescriptions_done hbytes hv), hstored,
        map_modelOf_zip]
    · rintro ⟨p, hp, hbelow⟩
      rw [placeOf_fixed vacant.directory huses.isFixed] at hloc
      have hsame : [escape p.1] = [name] := eq_of_prefix_append rfl hbelow hloc
      have hname := (huses.isFixed.escape_iff p.1).1 (List.cons.inj hsame).1
      rw [← hname] at huses
      exact (hfree p.1 (hmem p hp)).2 huses
  · obtain ⟨n, hn, hbad⟩ := hblocked
    obtain ⟨p, hp, rfl⟩ : ∃ p ∈ (names (descriptions v)).zip (descriptions v), p.1 = n := by
      rw [← map_fst_zip_names] at hn
      exact List.mem_map.1 hn
    have hblocked : ¬ Storable ran.files (root ++ abstractNames t.id) p.1 := by
      rcases hbad with hmisfit | huses
      · exact fun h => hmisfit h.fits
      · exact not_storable_of_usesFile hstarted hchained huses
    obtain ⟨world', hfailed⟩ := storeAll_failed hdirectory ⟨p, hp, hblocked⟩
    exact ⟨world', by rw [hgenerate, bind_of_done (readDescriptions_done hbytes hv), hfailed]⟩

/-- Without shared stages there is nothing to store. -/
theorem generate_single {registry : Registry (Runner σ)} {t : AbstractTask} {c : RequirementClass}
    {world : World σ} {root : Location} (vacant : Vacant world.files w t.id root) {f : Fragment}
    (load : Fragment.load world.files t.descriptor = .ok f) (shared : c.sharedStages = []) :
    ∃ world', generate registry w t c world =
      (.done [⟨singleModel, w.modelDir t.id singleModel, (w.abstractDir t.id).join initialTask⟩],
        world') := by
  obtain ⟨started, hstart, _⟩ := start_done (c := c) vacant load
  refine ⟨started, ?_⟩
  rw [generate, bind_of_done hstart, shared]
  rfl

end EnvModels

end TaskGen
