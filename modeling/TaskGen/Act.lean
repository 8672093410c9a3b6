import TaskGen.FileTree
import TaskGen.Metrics

/-!
Stages and schedulers act on files, and they may fail, break down or never come to an end.
An action says what becomes of the world and how it ends.
-/

namespace TaskGen

/-- What actions act on. -/
structure World (σ : Type) where
  files : FileTree
  /-- The time since the beginning. -/
  clock : Duration
  /-- When somebody asked for the end of the run, if anybody has. -/
  stopped : Option Duration
  others : σ

/-- How an action ends. -/
inductive Outcome (ε α : Type) where
  | done (result : α)
  | failed (error : ε)
  /-- It broke down and nobody was prepared for that. -/
  | panicked (reason : String)
  /-- It does not end. -/
  | hung
  deriving Repr

/-- An action on the world. -/
def Act (σ ε α : Type) : Type := World σ → Outcome ε α × World σ

namespace Act

variable {σ ε ε' α β : Type}

def run (a : Act σ ε α) (w : World σ) : Outcome ε α × World σ := a w

def done (result : α) : Act σ ε α := fun w => (.done result, w)

def fail (error : ε) : Act σ ε α := fun w => (.failed error, w)

def panic (reason : String) : Act σ ε α := fun w => (.panicked reason, w)

def hang : Act σ ε α := fun w => (.hung, w)

/-- Only what is done has something after it. -/
def andThen (a : Act σ ε α) (next : α → Act σ ε β) : Act σ ε β := fun w =>
  match a w with
  | (.done result, w) => next result w
  | (.failed error, w) => (.failed error, w)
  | (.panicked reason, w) => (.panicked reason, w)
  | (.hung, w) => (.hung, w)

instance : Monad (Act σ ε) where
  pure := done
  bind := andThen

theorem pure_eq (result : α) (w : World σ) : (pure result : Act σ ε α) w = (.done result, w) :=
  rfl

theorem bind_eq_andThen (a : Act σ ε α) (next : α → Act σ ε β) : a >>= next = a.andThen next := rfl

theorem andThen_of_done {a : Act σ ε α} {next : α → Act σ ε β} {w v : World σ} {result : α}
    (h : a w = (.done result, v)) : a.andThen next w = next result v := by
  simp [andThen, h]

/-- An action that has something after it is done itself. -/
theorem exists_of_andThen_done {a : Act σ ε α} {next : α → Act σ ε β} {w v : World σ} {b : β}
    (h : a.andThen next w = (.done b, v)) :
    ∃ result u, a w = (.done result, u) ∧ next result u = (.done b, v) := by
  unfold andThen at h
  split at h
  · next result u ha => exact ⟨result, u, ha, h⟩
  all_goals simp at h

instance : LawfulMonad (Act σ ε) := by
  refine LawfulMonad.mk' (Act σ ε) (fun a => ?_) (fun _ _ => rfl) (fun a f g => ?_)
  · funext w
    show (a.andThen fun x => done x) w = a w
    unfold andThen done
    split <;> simp_all
  · funext w
    show ((a.andThen f).andThen g) w = (a.andThen fun x => (f x).andThen g) w
    unfold andThen
    cases a w with
    | mk outcome u => cases outcome <;> rfl

def ofExcept : Except ε α → Act σ ε α
  | .ok result => done result
  | .error error => fail error

/-- Say in other words why an action failed. -/
def mapError (f : ε → ε') (a : Act σ ε α) : Act σ ε' α := fun w =>
  match a w with
  | (.done result, w) => (.done result, w)
  | (.failed error, w) => (.failed (f error), w)
  | (.panicked reason, w) => (.panicked reason, w)
  | (.hung, w) => (.hung, w)

/-- Go on after a failure. -/
def attempt (a : Act σ ε α) : Act σ ε' (Except ε α) := fun w =>
  match a w with
  | (.done result, w) => (.done (.ok result), w)
  | (.failed error, w) => (.done (.error error), w)
  | (.panicked reason, w) => (.panicked reason, w)
  | (.hung, w) => (.hung, w)

/-! ### The world -/

def get : Act σ ε (World σ) := fun w => (.done w, w)

def modify (f : World σ → World σ) : Act σ ε Unit := fun w => (.done (), f w)

def files : Act σ ε FileTree := fun w => (.done w.files, w)

def setFiles (files : FileTree) : Act σ ε Unit := modify fun w => { w with files }

/-- Look at the files. -/
def inspect (f : FileTree → Except FileError α) : Act σ FileError α := fun w =>
  ofExcept (f w.files) w

/-- Change the files.  If that fails they are as before. -/
def change (f : FileTree → Except FileError FileTree) : Act σ FileError Unit := fun w =>
  match f w.files with
  | .ok files => (.done (), { w with files })
  | .error error => (.failed error, w)

/-- Make a directory and those on the way to it. -/
def makeDirs (p : Path) : Act σ FileError Unit := fun w =>
  let (files, result) := w.files.makeDirs p
  ofExcept result { w with files }

/-- Let some time pass. -/
def wait (d : Duration) : Act σ ε Unit := modify fun w => { w with clock := w.clock.plus d }

/-- Ask for the end of the run.  Only the first time counts. -/
def stop : Act σ ε Unit := modify fun w => { w with stopped := w.stopped <|> some w.clock }

end Act
end TaskGen
