import TaskGen.Proofs.Pipeline.Supervision
import TaskGen.Proofs.Session.Disk

/-!
What a submission leaves in the spool.  The directory of the task is made before anybody looks at
the task, and nobody takes anything away again.  So a submission that fails leaves what it came to:
directories, a part of the task, or the task without the whole path of the bundle.

Main statements: `Spool.submission_of_schedule`, `Spool.refused_submission_leaves_directory`.
-/

namespace TaskGen

def Outcome.isFailed {ε α : Type} : Outcome ε α → Bool
  | .failed _ => true
  | _ => false

theorem isFailed_iff {ε α : Type} {o : Outcome ε α} : o.isFailed = true ↔ ∃ e, o = .failed e := by
  cases o with
  | failed e => simp [Outcome.isFailed]
  | _ => simp [Outcome.isFailed]

namespace FileTree

variable {t t' : FileTree} {loc : Location}

/-- The names of the place that names lead to are among them and those of the place before. -/
theorem mem_of_mem_follow {names : List String} {name : String} (h : name ∈ follow loc names) :
    name ∈ loc ∨ name ∈ names := by
  induction names generalizing loc with
  | nil => exact .inl h
  | cons first names ih =>
    rw [follow] at h
    split at h
    · exact (ih h).imp_right (List.mem_cons_of_mem _)
    · split at h
      · rcases ih h with hloc | hnames
        · exact .inl (List.mem_of_mem_dropLast hloc)
        · exact .inr (List.mem_cons_of_mem _ hnames)
      · rcases ih h with hloc | hnames
        · rcases List.mem_append.1 hloc with hloc | hfirst
          · exact .inl hloc
          · rw [List.mem_singleton.1 hfirst]
            exact .inr List.mem_cons_self
        · exact .inr (List.mem_cons_of_mem _ hnames)

theorem notMem_follow {here : Location} {p : Path} {name : String}
    (hhere : name ∉ here) (hnames : name ∉ names p) {front : List String}
    (hfront : front <+: names p) : name ∉ follow (start here p) front := by
  intro h
  rcases mem_of_mem_follow h with hstart | hmem
  · unfold start at hstart
    split at hstart
    · cases hstart
    · exact hhere hstart
  · exact hnames (hfront.subset hmem)

end FileTree

namespace Spool

open FileTree Pipeline

variable {σ : Type} {s : Spool} {id : String} {task bundle : Path} {files made : FileTree}

/-! ### A new directory -/

/-- Nobody has used the identifier: no directory has it as its name, and no path that matters
here goes through it. -/
structure Unused (s : Spool) (files : FileTree) (id : String) : Prop where
  isName : IsName id
  fits : Fits id
  root : id ∉ FileTree.names s.root
  here : id ∉ files.here
  nowhere : ∀ loc, id ∈ loc → files.get? loc = none

def place (s : Spool) (files : FileTree) (id : String) : Location :=
  placeOf files.here (s.taskDir id)

theorem Unused.place_eq (h : Unused s files id) :
    s.place files id = placeOf files.here s.root ++ [id] := placeOf_join_name _ _ h.isName

theorem Unused.mem_place (h : Unused s files id) : id ∈ s.place files id := by
  rw [h.place_eq]
  exact List.mem_append_right _ List.mem_cons_self

theorem Unused.not_onWay (h : Unused s files id) {loc : Location} (hid : id ∈ loc) :
    ¬ OnWay files.here s.root loc := by
  rintro ⟨front, hfront, rfl⟩
  exact notMem_follow h.here h.root hfront hid

/-- The directory of the task is the only place with its name, if it is there. -/
theorem Unused.get?_made (h : Unused s files id) {loc : Location} (hid : id ∈ loc)
    (hloc : loc ≠ s.place files id) :
    (files.makeDirs (s.taskDir id)).1.get? loc = none := by
  rcases (confined_makeDirs files (s.taskDir id)).outside loc not_false with
    hsame | ⟨hway, -, -⟩
  · rw [hsame]
    exact h.nowhere loc hid
  · rcases onWay_join h.isName hway with hroot | hlast
    · exact (h.not_onWay hid hroot).elim
    · rw [← h.place_eq] at hlast
      exact (hloc hlast).elim

theorem Unused.directoryAt (h : Unused s files id)
    (make : files.makeDirs (s.taskDir id) = (made, .ok ())) :
    DirectoryAt made (s.taskDir id) (s.place files id) :=
  directoryAt_of_makeDirs make (Path.text_join_ne_empty s.root h.isName.toIsStep)

/-! ### The files of a task -/

theorem isName_taskFile : IsName taskFile := ⟨⟨by decide, by decide⟩, by decide, by decide⟩

theorem isName_bundleFile : IsName bundleFile := ⟨⟨by decide, by decide⟩, by decide, by decide⟩

theorem fits_taskFile : Fits taskFile := ⟨by decide, by decide⟩

theorem fits_bundleFile : Fits bundleFile := ⟨by decide, by decide⟩

/-- Where a submission writes. -/
def Own (s : Spool) (files : FileTree) (id : String) (loc : Location) : Prop :=
  loc = s.place files id ++ [taskFile] ∨ loc = s.place files id ++ [bundleFile]

def withTask (s : Spool) (id : String) (files made : FileTree) (bytes : ByteArray) : FileTree :=
  made.put (s.place files id ++ [taskFile]) (.file bytes)

def withBundle (s : Spool) (id : String) (files made : FileTree) (bytes text : ByteArray) :
    FileTree :=
  (withTask s id files made bytes).put (s.place files id ++ [bundleFile]) (.file text)

/-- What a submission may leave when it fails, by how far it came. -/
inductive Remains (s : Spool) (id : String) (task bundle : Path) (files : FileTree) :
    FileTree → Prop where
  | directories {files' : FileTree}
    (kept : Confined (fun _ => False) (OnWay files.here (s.taskDir id)) files files') :
    Remains s id task bundle files files'
  /-- The task is there from its beginning on, not necessarily up to its end. -/
  | task {made : FileTree} {bytes : ByteArray}
    (make : files.makeDirs (s.taskDir id) = (made, .ok ())) (read : made.read task = .ok bytes)
    (n : Nat) : Remains s id task bundle files (withTask s id files made (bytes.extract 0 n))
  /-- The path of the bundle begins beside a whole task. -/
  | bundle {made : FileTree} {bytes : ByteArray}
    (make : files.makeDirs (s.taskDir id) = (made, .ok ())) (read : made.read task = .ok bytes)
    (n : Nat) : Remains s id task bundle files
      (withBundle s id files made bytes (bundle.text.toUTF8.extract 0 n))

/-- What becomes of the files when a task is submitted under an identifier. -/
structure Submission (s : Spool) (d : Disk σ) (id : String) (task bundle : Path)
    (files files' : FileTree) (outcome : Outcome SessionError String) : Prop where
  ends : outcome = .done id ∨ outcome = .failed .io
  /-- Without its directory or without a task that can be read, it fails and adds no file. -/
  refused : (files.makeDirs (s.taskDir id)).2 ≠ .ok () ∨
      ¬ (files.makeDirs (s.taskDir id)).1.Readable task →
    outcome = .failed .io ∧
      Confined (fun _ => False) (OnWay files.here (s.taskDir id)) files files'
  /-- Otherwise only the disk can be to blame. -/
  accepted : d = .sound → (files.makeDirs (s.taskDir id)).2 = .ok () →
    (files.makeDirs (s.taskDir id)).1.Readable task → outcome = .done id
  /-- What was there before is there still, and it is the same. -/
  old : ∀ loc e, files.get? loc = some e → files'.get? loc = some e
  /-- What is new are directories on the way to that of the task, and two files in it. -/
  kept : Confined (Own s files id) (OnWay files.here (s.taskDir id)) files files'
  remains : outcome = .failed .io → Remains s id task bundle files files'
  /-- A task that is accepted is there as a whole. -/
  whole : outcome = .done id →
    (∃ bytes, (files.makeDirs (s.taskDir id)).1.read task = .ok bytes ∧
      files'.read ((s.taskDir id).join taskFile) = .ok bytes) ∧
    files'.read ((s.taskDir id).join bundleFile) = .ok bundle.text.toUTF8

theorem Unused.get?_own (unused : Unused s files id) {loc : Location} (h : Own s files id loc) :
    files.get? loc = none := by
  apply unused.nowhere
  rcases h with rfl | rfl
  · exact List.mem_append_left _ unused.mem_place
  · exact List.mem_append_left _ unused.mem_place

/-- Nothing is where a submission writes, so nothing is lost. -/
theorem Unused.old_of_confined (unused : Unused s files id) {way : Location → Prop}
    {files' : FileTree} (h : Confined (Own s files id) way files files') (loc : Location)
    (e : Entry) (before : files.get? loc = some e) : files'.get? loc = some e := by
  have hout : ¬ Own s files id loc := by
    intro hown
    rw [unused.get?_own hown] at before
    cases before
  rcases h.outside loc hout with hsame | ⟨_, hnone, _⟩
  · rw [hsame, before]
  · rw [hnone] at before
    cases before

section
variable (unused : Unused s files id) (make : files.makeDirs (s.taskDir id) = (made, .ok ()))
  (bytes : ByteArray)
include unused make

theorem Unused.get?_below (name : String) : made.get? (s.place files id ++ [name]) = none := by
  have hmem : id ∈ s.place files id ++ [name] := List.mem_append_left _ unused.mem_place
  have hnone := unused.get?_made hmem (by simp)
  rw [make] at hnone
  exact hnone

theorem Unused.touches_withTask :
    Touches (· = s.place files id ++ [taskFile]) made (withTask s id files made bytes) := by
  apply touches_put_file
  simp [unused.get?_below make]

theorem Unused.free_bundle :
    (withTask s id files made bytes).get? (s.place files id ++ [bundleFile]) = none := by
  rw [withTask, get?_put_of_ne]
  · exact unused.get?_below make bundleFile
  · simp [taskFile, bundleFile]

theorem Unused.touches_withBundle (text : ByteArray) :
    Touches (Own s files id) made (withBundle s id files made bytes text) := by
  have htask := unused.touches_withTask make bytes
  have hbundle : Touches (· = s.place files id ++ [bundleFile])
      (withTask s id files made bytes) (withBundle s id files made bytes text) := by
    apply touches_put_file
    simp [unused.free_bundle make]
  exact (htask.mono fun loc => .inl).trans (hbundle.mono fun loc => .inr)

theorem Unused.directoryAt_withTask :
    DirectoryAt (withTask s id files made bytes) (s.taskDir id) (s.place files id) :=
  (unused.touches_withTask make bytes).directoryAt (unused.directoryAt make)

omit unused in
theorem confined_of_touches {files' : FileTree} (h : Touches (Own s files id) made files') :
    Confined (Own s files id) (OnWay files.here (s.taskDir id)) files files' := by
  have hconfined := confined_makeDirs files (s.taskDir id)
  rw [make] at hconfined
  exact (hconfined.mono (fun loc hin => hin.elim) fun loc hway => .inr hway).trans h.confined

end

theorem Remains.confined {files' : FileTree} (unused : Unused s files id)
    (h : Remains s id task bundle files files') :
    Confined (Own s files id) (OnWay files.here (s.taskDir id)) files files' := by
  cases h with
  | directories kept => exact kept.mono (fun loc hin => hin.elim) fun loc hway => .inr hway
  | task make _ n =>
    exact confined_of_touches make ((unused.touches_withTask make _).mono fun loc => .inl)
  | bundle make _ n => exact confined_of_touches make (unused.touches_withBundle make _ _)

/-- A file is left only if the task could be read. -/
theorem Remains.directories_of_refused {files' : FileTree}
    (h : Remains s id task bundle files files')
    (why : (files.makeDirs (s.taskDir id)).2 ≠ .ok () ∨
      ¬ (files.makeDirs (s.taskDir id)).1.Readable task) :
    Confined (fun _ => False) (OnWay files.here (s.taskDir id)) files files' := by
  have hfalse : ∀ {made : FileTree} {bytes : ByteArray},
      files.makeDirs (s.taskDir id) = (made, .ok ()) → made.read task = .ok bytes → False := by
    intro made bytes make read
    rw [make] at why
    rcases why with hunmade | hunread
    · exact hunmade rfl
    · exact hunread ⟨bytes, read⟩
  cases h with
  | directories kept => exact kept
  | task make read n => exact (hfalse make read).elim
  | bundle make read n => exact (hfalse make read).elim

theorem Unused.submission_failed {d : Disk σ} {files' : FileTree} (unused : Unused s files id)
    (remains : Remains s id task bundle files files')
    (unsound : d = .sound → (files.makeDirs (s.taskDir id)).2 = .ok () →
      ¬ (files.makeDirs (s.taskDir id)).1.Readable task) :
    Submission s d id task bundle files files' (.failed .io) where
  ends := .inr rfl
  refused why := ⟨rfl, remains.directories_of_refused why⟩
  accepted sound make read := (unsound sound make read).elim
  old := unused.old_of_confined (remains.confined unused)
  kept := remains.confined unused
  remains _ := remains
  whole h := by cases h

theorem Unused.submission_done (unused : Unused s files id) (d : Disk σ)
    (make : files.makeDirs (s.taskDir id) = (made, .ok ())) {bytes : ByteArray}
    (read : made.read task = .ok bytes) (bundle : Path) : Submission s d id task bundle files
      (withBundle s id files made bytes bundle.text.toUTF8) (.done id) where
  ends := .inl rfl
  refused why := by
    rw [make] at why
    rcases why with hunmade | hunread
    · exact (hunmade rfl).elim
    · exact (hunread ⟨bytes, read⟩).elim
  accepted _ _ _ := rfl
  old := unused.old_of_confined (confined_of_touches make (unused.touches_withBundle make _ _))
  kept := confined_of_touches make (unused.touches_withBundle make _ _)
  remains h := by cases h
  whole _ := by
    have hdirectory := (unused.touches_withBundle make bytes bundle.text.toUTF8).directoryAt
      (unused.directoryAt make)
    refine ⟨⟨bytes, ?_, ?_⟩, ?_⟩
    · rw [make]
      exact read
    · apply hdirectory.read_join isName_taskFile fits_taskFile
      rw [withBundle, get?_put_of_ne (by simp [taskFile, bundleFile]), withTask,
        get?_put_self (by simp)]
    · apply hdirectory.read_join isName_bundleFile fits_bundleFile
      rw [withBundle, get?_put_self (by simp)]

/-! ### Submissions -/

/-- Where nothing is a file can be copied to. -/
theorem copy_of_readable {p q : Path} {bytes : ByteArray} {loc : Location}
    (read : files.read p = .ok bytes) (target : files.locate q = .ok loc)
    (free : files.get? loc = none) : files.copy p q = .ok (files.put loc (.file bytes)) := by
  obtain ⟨source, hsource, hfile⟩ := exists_of_read read
  have hne : source ≠ loc := by
    rintro rfl
    rw [free] at hfile
    cases hfile
  simp [copy, read, hsource, target, hne, FileTree.write, free, bind, Except.bind]

section
variable (unused : Unused s files id) (make : files.makeDirs (s.taskDir id) = (made, .ok ()))
  {files' : FileTree} {bytes : ByteArray}
include unused make

theorem Unused.copy_eq (read : made.read task = .ok bytes) :
    made.copy task ((s.taskDir id).join taskFile) = .ok (withTask s id files made bytes) :=
  copy_of_readable read ((unused.directoryAt make).locate_join isName_taskFile fits_taskFile)
    (unused.get?_below make taskFile)

theorem Unused.write_eq (text : ByteArray) :
    (withTask s id files made bytes).write ((s.taskDir id).join bundleFile) text =
      .ok (withBundle s id files made bytes text) :=
  (unused.directoryAt_withTask make bytes).write_join isName_bundleFile fits_bundleFile
    (by simp [unused.free_bundle make]) text

theorem Unused.eq_withTask (read : made.read task = .ok bytes)
    (h : made.copy task ((s.taskDir id).join taskFile) = .ok files') :
    files' = withTask s id files made bytes := by
  rw [unused.copy_eq make read] at h
  exact (Except.ok.inj h).symm

theorem Unused.remains_of_copy (h : files' = made ∨ ∃ bytes, made.read task = .ok bytes ∧
    Begun ((s.taskDir id).join taskFile) bytes made files') :
    Remains s id task bundle files files' := by
  rcases h with rfl | ⟨bytes, read, loc, n, hlocate, -, rfl⟩
  · have hconfined := confined_makeDirs files (s.taskDir id)
    rw [make] at hconfined
    exact .directories hconfined
  · rw [(unused.directoryAt make).locate_join isName_taskFile fits_taskFile] at hlocate
    cases hlocate
    exact .task make read n

theorem Unused.remains_of_write (read : made.read task = .ok bytes)
    (h : files' = withTask s id files made bytes ∨ Begun ((s.taskDir id).join bundleFile)
      bundle.text.toUTF8 (withTask s id files made bytes) files') :
    Remains s id task bundle files files' := by
  rcases h with rfl | ⟨loc, n, hlocate, -, rfl⟩
  · have hremains : Remains s id task bundle files
        (withTask s id files made (bytes.extract 0 bytes.size)) := .task make read _
    rwa [ByteArray.extract_zero_size] at hremains
  · rw [(unused.directoryAt_withTask make bytes).locate_join isName_bundleFile
      fits_bundleFile] at hlocate
    cases hlocate
    exact .bundle make read n

end

theorem exists_read_of_copy {p q : Path} {files' : FileTree} (h : files.copy p q = .ok files') :
    ∃ bytes, files.read p = .ok bytes := by
  obtain ⟨-, bytes, hread, -⟩ := of_copy h
  exact ⟨bytes, hread⟩

/-- Each of the three operations has its own way to fail. -/
theorem Unused.submit_cases {d : Disk σ} (lawful : d.Lawful) {w : World σ}
    (unused : Unused s w.files id) (task bundle : Path) :
    (∃ v made bytes, s.submit d id task bundle w = (.done (), v) ∧
      w.files.makeDirs (s.taskDir id) = (made, .ok ()) ∧ made.read task = .ok bytes ∧
      v.files = withBundle s id w.files made bytes bundle.text.toUTF8) ∨
    ∃ v, s.submit d id task bundle w = (.failed .io, v) ∧
      Remains s id task bundle w.files v.files := by
  have hrest : ∀ {v : World σ}, io (d.makeDirs (s.taskDir id)) w = (.done (), v) →
      s.submit d id task bundle w = (do
        io (d.copy task ((s.taskDir id).join taskFile))
        io (d.write ((s.taskDir id).join bundleFile) bundle.text.toUTF8)) v :=
    fun h => bind_of_done h _
  rcases (lawful.makeDirs (s.taskDir id)).io w with ⟨v, hmade, make⟩ | ⟨v, hfailed, hkept⟩
  · rw [hrest hmade]
    rcases (lawful.copy task ((s.taskDir id).join taskFile)).io v with
      ⟨u, hcopied, hcopy⟩ | ⟨u, hfailed, hleft⟩
    · obtain ⟨bytes, read⟩ := exists_read_of_copy hcopy
      have hu := unused.eq_withTask make read hcopy
      rw [bind_of_done hcopied]
      rcases (lawful.write ((s.taskDir id).join bundleFile) bundle.text.toUTF8).io u with
        ⟨x, hwritten, hwrite⟩ | ⟨x, hfailed, hleft⟩
      · rw [hu, unused.write_eq make] at hwrite
        exact .inl ⟨x, v.files, bytes, hwritten, make, read, (Except.ok.inj hwrite).symm⟩
      · rw [hu] at hleft
        exact .inr ⟨x, hfailed, unused.remains_of_write make read hleft⟩
    · exact .inr ⟨u, bind_of_failed hfailed _, unused.remains_of_copy make hleft⟩
  · exact .inr ⟨v, bind_of_failed hfailed _, .directories hkept⟩

theorem Unused.schedule_eq {w : World σ} (unused : Unused s w.files id)
    (make : w.files.makeDirs (s.taskDir id) = (made, .ok ())) {bytes : ByteArray}
    (read : made.read task = .ok bytes) (bundle : Path) : s.schedule id task bundle w =
      (.done (), withFiles w (withBundle s id w.files made bytes bundle.text.toUTF8)) := by
  have hchange : ∀ {f : FileTree → Except FileError FileTree} {v : World σ} {after : FileTree},
      f v.files = .ok after →
        (io (Act.change f) : Act σ SessionError Unit) v = (.done (), withFiles v after) := by
    intro f v after h
    rw [io, Act.mapError, Act.change, h]
    rfl
  have hmade : (io (Act.makeDirs (s.taskDir id)) : Act σ SessionError Unit) w =
      (.done (), withFiles w made) := by
    rw [io, Act.mapError, Act.makeDirs, make]
    rfl
  have hcopied := hchange (f := fun t => t.copy task ((s.taskDir id).join taskFile))
    (v := withFiles w made) (unused.copy_eq make read)
  have hwritten := hchange
    (f := fun t => t.write ((s.taskDir id).join bundleFile) bundle.text.toUTF8)
    (v := withFiles w (withTask s id w.files made bytes))
    (unused.write_eq make bundle.text.toUTF8)
  calc s.schedule id task bundle w
    _ = (io (Disk.sound.copy task ((s.taskDir id).join taskFile)) >>= fun _ =>
          io (Disk.sound.write ((s.taskDir id).join bundleFile) bundle.text.toUTF8))
        (withFiles w made) := bind_of_done hmade _
    _ = io (Disk.sound.write ((s.taskDir id).join bundleFile) bundle.text.toUTF8)
        (withFiles w (withTask s id w.files made bytes)) := bind_of_done hcopied _
    _ = (.done (), withFiles w (withBundle s id w.files made bytes bundle.text.toUTF8)) := hwritten

/-- On a sound disk nothing but the files themselves makes a submission fail. -/
theorem Unused.not_readable_of_failed {d : Disk σ} {w v : World σ} (unused : Unused s w.files id)
    (failed : s.submit d id task bundle w = (.failed .io, v)) (sound : d = .sound)
    (make : (w.files.makeDirs (s.taskDir id)).2 = .ok ()) :
    ¬ (w.files.makeDirs (s.taskDir id)).1.Readable task := by
  rintro ⟨bytes, read⟩
  subst sound
  have hdone := failed.symm.trans (unused.schedule_eq (Prod.ext rfl make) read bundle)
  cases hdone

theorem schedule_session {d : Disk σ} {fresh : Act σ SessionError String} {w u : World σ}
    (named : fresh w = (.done id, u)) : (s.session d fresh).schedule task bundle w =
      (s.submit d id task bundle >>= fun _ => pure id) u := bind_of_done named _

/-- A submission under an identifier that nobody has used, on a disk that may fail at any time. -/
theorem submission_of_schedule {d : Disk σ} (lawful : d.Lawful)
    {fresh : Act σ SessionError String} {w u : World σ} (named : fresh w = (.done id, u))
    (same : u.files = w.files) (unused : Unused s w.files id) (task bundle : Path) :
    Submission s d id task bundle w.files ((s.session d fresh).schedule task bundle w).2.files
      ((s.session d fresh).schedule task bundle w).1 := by
  rw [← same] at unused ⊢
  rw [schedule_session named]
  rcases unused.submit_cases lawful task bundle with
    ⟨v, made, bytes, hdone, make, read, hfiles⟩ | ⟨v, hfailed, hremains⟩
  · rw [bind_of_done hdone]
    have hsubmission := unused.submission_done d make read bundle
    rw [← hfiles] at hsubmission
    exact hsubmission
  · rw [bind_of_failed hfailed]
    exact unused.submission_failed hremains (unused.not_readable_of_failed hfailed)

/-! ### One spool -/

def sampleTree : FileTree := ⟨[(["t.json"], .file "\x7b\x7d".toUTF8)], []⟩

def sampleStart : World Unit where
  files := sampleTree
  clock := ⟨0⟩
  stopped := none
  others := ()

/-- A disk with room for directories and for one byte. -/
def jammed : Disk σ where
  makeDirs := Act.makeDirs
  copy source target := fun w =>
    match w.files.read source with
    | .error e => (.failed e, w)
    | .ok bytes =>
      match w.files.write target (bytes.extract 0 1) with
      | .error e => (.failed e, w)
      | .ok files => (.failed .refused, { w with files })
  write _ _ := Act.fail .refused

theorem lawful_jammed : (jammed : Disk σ).Lawful where
  makeDirs p := Act.ends_makeDirs p
  copy source target w := by
    dsimp only [jammed]
    cases read : w.files.read source with
    | error e => exact .inr ⟨e, w, rfl, .inl rfl⟩
    | ok bytes =>
      dsimp only
      cases write : w.files.write target (bytes.extract 0 1) with
      | error e => exact .inr ⟨e, w, rfl, .inl rfl⟩
      | ok files =>
        exact .inr ⟨.refused, { w with files }, rfl, .inr ⟨bytes, rfl, begun_of_write write⟩⟩
  write _ _ w := .inr ⟨.refused, w, rfl, .inl rfl⟩

/-- A submission to a spool that gives the identifier `a`. -/
def submitted (d : Disk Unit) (task : Path) : Outcome SessionError String × World Unit :=
  ((Spool.mk ⟨"/spool"⟩).session d (pure "a")).schedule task ⟨"/b"⟩ sampleStart

theorem unused_sample : Unused ⟨⟨"/spool"⟩⟩ sampleTree "a" where
  isName := ⟨⟨by decide, by decide⟩, by decide, by decide⟩
  fits := ⟨by decide, by decide⟩
  root := by decide
  here := by decide
  nowhere loc h := by
    have hempty : loc ≠ [] := List.ne_nil_of_mem h
    have hother : (loc == ["t.json"]) = false := by
      rw [beq_eq_false_iff_ne]
      rintro rfl
      simp at h
    simp [get?, sampleTree, List.lookup_cons, hempty, hother]

theorem submission_of_sample :
    ((submitted jammed ⟨"/t.json"⟩).2.files.readText ⟨"/spool/a/task.json"⟩).toOption =
      some "\x7b" ∧
    Submission ⟨⟨"/spool"⟩⟩ (jammed : Disk Unit) "a" ⟨"/t.json"⟩ ⟨"/b"⟩ sampleStart.files
      (submitted jammed ⟨"/t.json"⟩).2.files (submitted jammed ⟨"/t.json"⟩).1 := by
  constructor
  · decide +kernel
  · have hnamed : (pure "a" : Act Unit SessionError String) sampleStart =
        (.done "a", sampleStart) := Act.pure_eq _ _
    have hsubmission := submission_of_schedule lawful_jammed hnamed rfl unused_sample
      ⟨"/t.json"⟩ ⟨"/b"⟩
    unfold submitted
    exact hsubmission

/-- The task is missing, so the submission fails.  The directory was not there before. -/
theorem refused_submission_leaves_directory :
    (∃ e, (submitted .sound ⟨"/u.json"⟩).1 = .failed e) ∧
      sampleStart.files.has ⟨"/spool/a"⟩ = false ∧
      (submitted .sound ⟨"/u.json"⟩).2.files.has ⟨"/spool/a"⟩ = true ∧
      (submitted .sound ⟨"/u.json"⟩).2.files.has ⟨"/spool/a/task.json"⟩ = false := by
  refine ⟨?_, by decide +kernel, by decide +kernel, by decide +kernel⟩
  apply isFailed_iff.1
  decide +kernel

end Spool
end TaskGen
