import TaskGen.Proofs.FileTree.Changes
import TaskGen.Session.Spool

/-!
What a disk may do.  An operation that succeeds has done what it was asked for.  One that fails may
have begun: some directories are there then, or a part of a file.

Main statement: `Disk.lawful_sound`.
-/

namespace TaskGen

variable {σ : Type}

namespace FileTree

/-- The file that a path leads to was opened, and a part of the bytes was written. -/
def Begun (p : Path) (bytes : ByteArray) (t t' : FileTree) : Prop :=
  ∃ loc n, t.locate p = .ok loc ∧ t.get? loc ≠ some .directory ∧
    t' = t.put loc (.file (bytes.extract 0 n))

theorem begun_of_write {t t' : FileTree} {p : Path} {bytes : ByteArray} {n : Nat}
    (h : t.write p (bytes.extract 0 n) = .ok t') : Begun p bytes t t' := by
  obtain ⟨loc, hlocate, hfree, ht'⟩ := exists_of_write h
  exact ⟨loc, n, hlocate, hfree, ht'⟩

end FileTree

/-- The action succeeds or fails.  `done` relates the files before and after a success, and `left`
those before and after a failure. -/
def Act.Ends (a : Act σ FileError Unit) (done left : FileTree → FileTree → Prop) : Prop :=
  ∀ w, (∃ v, a w = (.done (), v) ∧ done w.files v.files) ∨
    ∃ e v, a w = (.failed e, v) ∧ left w.files v.files

namespace Act

variable {a : Act σ FileError Unit} {done left : FileTree → FileTree → Prop}

theorem Ends.io (h : a.Ends done left) (w : World σ) :
    (∃ v, Spool.io a w = (.done (), v) ∧ done w.files v.files) ∨
      ∃ v, Spool.io a w = (.failed .io, v) ∧ left w.files v.files := by
  rcases h w with ⟨v, hrun, hdone⟩ | ⟨e, v, hrun, hleft⟩
  · exact .inl ⟨v, by rw [Spool.io, Act.mapError, hrun], hdone⟩
  · exact .inr ⟨v, by rw [Spool.io, Act.mapError, hrun], hleft⟩

/-- A change that fails leaves the files as they were. -/
theorem ends_change (f : FileTree → Except FileError FileTree) (unchanged : ∀ t, left t t) :
    (Act.change f : Act σ FileError Unit).Ends (fun t t' => f t = .ok t') left := by
  intro w
  rw [Act.change]
  cases hf : f w.files with
  | ok files => exact .inl ⟨{ w with files }, rfl, hf⟩
  | error e => exact .inr ⟨e, w, rfl, unchanged w.files⟩

theorem ends_makeDirs (p : Path) : (Act.makeDirs p : Act σ FileError Unit).Ends
    (fun t t' => t.makeDirs p = (t', .ok ()))
    (fun t t' => t.Confined (fun _ => False) (FileTree.OnWay t.here p) t') := by
  intro w
  have hconfined := FileTree.confined_makeDirs w.files p
  rw [Act.makeDirs]
  cases hmake : w.files.makeDirs p with
  | mk files result =>
    rw [hmake] at hconfined
    cases result with
    | ok _ => exact .inl ⟨{ w with files }, rfl, hmake⟩
    | error e => exact .inr ⟨e, { w with files }, rfl, hconfined⟩

end Act

namespace Disk

open FileTree

/-- What every disk keeps to.  Nothing is said of what makes an operation fail. -/
structure Lawful (d : Disk σ) : Prop where
  /-- On a failure some of the directories may have been made. -/
  makeDirs (p : Path) : (d.makeDirs p).Ends (fun t t' => t.makeDirs p = (t', .ok ()))
    (fun t t' => t.Confined (fun _ => False) (OnWay t.here p) t')
  /-- The target is not opened before the source can be read. -/
  copy (source target : Path) : (d.copy source target).Ends
    (fun t t' => t.copy source target = .ok t')
    (fun t t' => t' = t ∨ ∃ bytes, t.read source = .ok bytes ∧ Begun target bytes t t')
  write (p : Path) (bytes : ByteArray) : (d.write p bytes).Ends
    (fun t t' => t.write p bytes = .ok t') (fun t t' => t' = t ∨ Begun p bytes t t')

theorem lawful_sound : (Disk.sound : Disk σ).Lawful where
  makeDirs p := Act.ends_makeDirs p
  copy source target := Act.ends_change (fun files => files.copy source target) fun _ => .inl rfl
  write p bytes := Act.ends_change (fun files => files.write p bytes) fun _ => .inl rfl

end Disk
end TaskGen
