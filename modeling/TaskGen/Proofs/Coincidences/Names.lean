import TaskGen.Proofs.Pipeline

/-!
Identifiers beside fixed names.  The directories of models stand beside the files of their abstract
task, and the directories of tasks stand beside the artifact of their model.  An identifier is kept
in one step, but nothing keeps it from being one of the fixed names.  Here is when it is one.

Main statements: `Workspace.modelDir_fixed_iff`, `Workspace.taskDir_artifact_iff`.
-/

namespace TaskGen

open FileTree

namespace Workspace

open Pipeline

/-! ### Fixed names -/

/-- The names that an abstract task uses in its directory. -/
inductive IsFixed : String → Prop where
  | initial : IsFixed initialTask
  | result {name : String} (h : IsOutput name) : IsFixed name
  | work (s : Stage) : IsFixed s.dirName

variable {name : String}

theorem isName_initialTask : IsName initialTask :=
  ⟨isStep_initialTask, by decide, by decide⟩

theorem fits_initialTask : Fits initialTask := ⟨by decide, by decide⟩

theorem IsFixed.isName (h : IsFixed name) : IsName name := by
  cases h with
  | initial => exact isName_initialTask
  | result h => exact h.isName
  | work s => exact isName_dirName s

/-- A fixed name has nothing to escape. -/
theorem IsFixed.escape_eq (h : IsFixed name) : escape name = name := by
  cases h with
  | initial => decide
  | result h =>
    cases h with
    | models => decide
    | stage s => cases s <;> decide
  | work s => cases s <;> decide

theorem IsFixed.escape_iff (h : IsFixed name) (id : String) : escape id = name ↔ id = name := by
  constructor
  · intro heq
    exact escape_injective (heq.trans h.escape_eq.symm)
  · rintro rfl
    exact h.escape_eq

theorem steps_concat_iff {as bs : List String} {x y : String} (ha : ∀ q ∈ as, IsName q)
    (hb : ∀ q ∈ bs, IsName q) (hx : IsName x) (hy : IsName y) (root : Path) :
    (root.descend (as ++ [x])).steps = (root.descend (bs ++ [y])).steps ↔ as = bs ∧ x = y := by
  rw [steps_descend_inj (isName_append ha hx) (isName_append hb hy)]
  constructor
  · intro h
    obtain ⟨hfront, hlast⟩ := List.append_inj' h rfl
    exact ⟨hfront, (List.cons.inj hlast).1⟩
  · rintro ⟨rfl, rfl⟩
    rfl

variable (w : Workspace)

/-- The directory of a model is a file or a directory of an abstract task exactly if the model has
its name. -/
theorem modelDir_fixed_iff (h : IsFixed name) (a b : AbstractTaskId) (model : String) :
    (w.modelDir a model).steps = ((w.abstractDir b).join name).steps ↔ a = b ∧ model = name := by
  have hiff := steps_concat_iff (isName_abstractNames a) (isName_abstractNames b)
    (isName_escape model) h.isName w.root
  rw [abstractNames_injective.eq_iff, h.escape_iff] at hiff
  exact hiff

/-- The directory of a task is the artifact of a model exactly if the requirement is called like
the artifact. -/
theorem taskDir_artifact_iff (id : TaskId) (a : AbstractTaskId) (model : String) :
    (w.taskDir id).steps = ((w.modelDir a model).join initialTask).steps ↔
      id.abstractId = a ∧ id.model = model ∧ id.requirement = initialTask := by
  have hiff := steps_concat_iff (isName_modelNames id.abstractId id.model)
    (isName_modelNames a model) (isName_escape id.requirement) isName_initialTask w.root
  rw [modelNames_inj, IsFixed.initial.escape_iff, and_assoc] at hiff
  exact hiff

/-- Without shared stages the artifact is not where tasks are. -/
theorem taskDir_ne_initial (id : TaskId) (a : AbstractTaskId) :
    (w.taskDir id).steps ≠ ((w.abstractDir a).join initialTask).steps := by
  have hinitial : (w.abstractDir a).join initialTask =
      w.root.descend (abstractNames a ++ [initialTask]) := rfl
  rw [taskDir_eq, hinitial, ne_eq, steps_descend_inj (isName_taskNames id)
    (isName_append (isName_abstractNames a) isName_initialTask)]
  intro h
  have hlength := congrArg List.length h
  cases hlength

inductive IsTaskName : String → Prop where
  | final : IsTaskName finalTask
  | result (s : Stage) : IsTaskName (stageOutput s)
  | work (s : Stage) : IsTaskName s.dirName

theorem IsTaskName.isName (h : IsTaskName name) : IsName name := by
  cases h with
  | final => exact ⟨⟨by decide, by decide⟩, by decide, by decide⟩
  | result s => exact (IsOutput.stage s).isName
  | work s => exact isName_dirName s

theorem IsTaskName.ne_attempt (h : IsTaskName name) (attempt : Nat) :
    "attempt-" ++ toString attempt ≠ name := by
  have hfront : name.toList.take 8 ≠ "attempt-".toList := by
    cases h with
    | final => decide
    | result s => cases s <;> decide
    | work s => cases s <;> decide
  rintro rfl
  exact hfront (by simp)

theorem utf8Len_of_digits {cs : List Char} (h : ∀ c ∈ cs, c.isDigit = true) :
    String.utf8Len cs = cs.length := by
  induction cs with
  | nil => rfl
  | cons c cs ih =>
    have hdigit := h c List.mem_cons_self
    simp only [Char.isDigit, Bool.and_eq_true, decide_eq_true_eq] at hdigit
    have hsize : c.utf8Size = 1 :=
      Char.utf8Size_eq_one_iff.2 (UInt32.le_trans hdigit.2 (by decide))
    rw [String.utf8Len, ih fun d hd => h d (List.mem_cons_of_mem c hd), hsize]
    rfl

/-- Attempts are counted in 32 bits. -/
theorem fits_attempt {attempt : Nat} (h : attempt < 2 ^ 32) :
    Fits ("attempt-" ++ toString attempt) := by
  have hdigits : ∀ c ∈ Nat.toDigits 10 attempt, c.isDigit = true := fun c hc =>
    Nat.isDigit_of_mem_toDigits (by decide) (by decide) hc
  have hlength : (Nat.toDigits 10 attempt).length ≤ 10 :=
    (Nat.length_toDigits_le_iff (by decide) (by decide)).2 (by omega)
  have hsize : (toString attempt).utf8ByteSize = (Nat.toDigits 10 attempt).length := by
    rw [Nat.toString_eq_ofList_toDigits, String.utf8ByteSize_ofList, utf8Len_of_digits hdigits]
  have hfront : "attempt-".utf8ByteSize = 8 := by decide
  constructor
  · rw [String.utf8ByteSize_append, hsize, hfront]
    show _ ≤ 255
    omega
  · have hplain : Char.ofNat 0 ∉ (toString attempt).toList := by
      rw [Nat.toString_eq_ofList_toDigits, String.toList_ofList]
      exact fun hzero => absurd (hdigits _ hzero) (by decide)
    rw [String.toList_append, List.mem_append, not_or]
    exact ⟨by decide, hplain⟩

/-- A later attempt is not made where the first one has its results. -/
theorem attemptDir_ne (h : IsTaskName name) (a b : TaskId) (attempt : Nat) :
    (w.attemptDir a (attempt + 1)).steps ≠ ((w.taskDir b).join name).steps := by
  have hiff := steps_concat_iff (isName_taskNames a) (isName_taskNames b)
    (isName_attempt (attempt + 1)) h.isName w.root
  intro heq
  exact h.ne_attempt (attempt + 1) (hiff.1 heq).2

end Workspace

end TaskGen
