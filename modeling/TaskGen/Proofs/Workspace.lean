import Mathlib.Data.List.Basic
import Mathlib.Logic.Function.Basic
import Mathlib.Tactic.ByContra
import TaskGen.Workspace

/-!
An identifier is one step of a path, and another identifier is another step.  So the
directories of different tasks are different.
-/

namespace TaskGen
namespace Path

theorem splitSlashes_append_slash (a b : List Char) :
    splitSlashes (a ++ '/' :: b) = splitSlashes a ++ splitSlashes b := by
  induction a with
  | nil => simp [splitSlashes]
  | cons c a ih =>
    by_cases hc : c = '/'
    · simp [splitSlashes, hc, ih]
    · cases ha : splitSlashes a with
      | nil => exact absurd ha (splitSlashes_ne_nil a)
      | cons part more => simp [splitSlashes, hc, ih, ha]

theorem splitSlashes_of_notMem {s : List Char} (h : '/' ∉ s) : splitSlashes s = [s] := by
  induction s with
  | nil => rfl
  | cons c s ih =>
    rw [List.mem_cons, not_or] at h
    rw [splitSlashes, if_neg (Ne.symm h.1), ih h.2]

/-- A name that stands between slashes. -/
structure IsStep (q : String) : Prop where
  nonempty : q ≠ ""
  slashless : '/' ∉ q.toList

def trail (p : Path) : List String := p.parts.filter (· ≠ "")

theorem isAbsolute_mk_of_isStep {q : String} (h : IsStep q) : (Path.mk q).isAbsolute = false := by
  rw [isAbsolute]
  cases hq : q.toList with
  | nil => rfl
  | cons c rest =>
    have hc : c ≠ '/' := by
      intro hc
      exact h.slashless (by rw [hq, hc]; exact List.mem_cons_self)
    simp [hc]

theorem parts_mk_of_isStep {q : String} (h : IsStep q) : parts ⟨q⟩ = [q] := by
  simp [parts, splitSlashes_of_notMem h.slashless]

theorem parts_slash (a b : List Char) :
    parts ⟨String.ofList (a ++ '/' :: b)⟩ =
      parts ⟨String.ofList a⟩ ++ parts ⟨String.ofList b⟩ := by
  simp [parts, splitSlashes_append_slash]

/-- A step more is a part more.  An empty part at the end gives way to it. -/
theorem exists_parts_join (p : Path) {q : String} (h : IsStep q) :
    ∃ front, (p.join q).parts = front ++ [q] ∧ (p.parts = front ∨ p.parts = front ++ [""]) := by
  have hq : parts ⟨String.ofList q.toList⟩ = [q] := by
    rw [String.ofList_toList]
    exact parts_mk_of_isStep h
  have hnil : parts ⟨""⟩ = [""] := rfl
  by_cases hempty : p.text = ""
  · have hjoin : p.join q = ⟨q⟩ := by simp [join, isAbsolute_mk_of_isStep h, hempty]
    refine ⟨[], ?_, .inr ?_⟩
    · rw [hjoin, parts_mk_of_isStep h, List.nil_append]
    · simp [parts, hempty, splitSlashes]
  · by_cases hslash : p.text.toList.getLast? = some '/'
    · obtain ⟨front, hfront⟩ := List.getLast?_eq_some_iff.1 hslash
      have hp : p = ⟨String.ofList (front ++ '/' :: [])⟩ := by
        rw [← hfront, String.ofList_toList]
      have hjoin : p.join q = ⟨String.ofList (front ++ '/' :: q.toList)⟩ := by
        have htext : p.text ++ q = String.ofList (front ++ '/' :: q.toList) := by
          rw [← String.toList_inj, String.toList_append, hfront, String.toList_ofList]
          simp
        simp [join, isAbsolute_mk_of_isStep h, hslash, htext]
      refine ⟨parts ⟨String.ofList front⟩, ?_, .inr ?_⟩
      · rw [hjoin, parts_slash, hq]
      · rw [hp, parts_slash, String.ofList_nil, hnil]
    · have hjoin : p.join q = ⟨String.ofList (p.text.toList ++ '/' :: q.toList)⟩ := by
        have htext : p.text ++ "/" ++ q = String.ofList (p.text.toList ++ '/' :: q.toList) := by
          rw [← String.toList_inj, String.toList_ofList]
          simp
        simp [join, isAbsolute_mk_of_isStep h, hempty, hslash, htext]
      refine ⟨p.parts, ?_, .inl rfl⟩
      rw [hjoin, parts_slash, hq, String.ofList_toList]

theorem filter_eq_trail {p : Path} {front : List String}
    (h : p.parts = front ∨ p.parts = front ++ [""]) : front.filter (· ≠ "") = trail p := by
  rcases h with hparts | hparts
  · rw [trail, hparts]
  · simp [trail, hparts]

theorem trail_join (p : Path) {q : String} (h : IsStep q) : trail (p.join q) = trail p ++ [q] := by
  obtain ⟨front, hparts, hfront⟩ := exists_parts_join p h
  rw [trail, hparts, List.filter_append, filter_eq_trail hfront]
  simp [h.nonempty]

theorem isAbsolute_join (p : Path) {q : String} (h : IsStep q) :
    (p.join q).isAbsolute = p.isAbsolute := by
  have htext : (p.join q).text.toList.head? = p.text.toList.head? ∨ p.text = "" := by
    by_cases hempty : p.text = ""
    · exact .inr hempty
    · refine .inl ?_
      have hne : p.text.toList ≠ [] := by simpa using hempty
      rw [join, if_neg (by simp [isAbsolute_mk_of_isStep h])]
      split
      · rw [String.toList_append, List.head?_append_of_ne_nil _ hne]
      · rw [String.toList_append, String.toList_append, List.append_assoc,
          List.head?_append_of_ne_nil _ hne]
  rcases htext with hhead | hempty
  · rw [isAbsolute, isAbsolute, hhead]
  · have hjoin : p.join q = ⟨q⟩ := by simp [join, isAbsolute_mk_of_isStep h, hempty]
    rw [hjoin, isAbsolute_mk_of_isStep h, isAbsolute, hempty]
    rfl

theorem head?_parts_join (p : Path) {q : String} (h : IsStep q) (hdot : q ≠ ".") :
    (p.join q).parts.head? = some "." ↔ p.parts.head? = some "." := by
  obtain ⟨front, hparts, hfront⟩ := exists_parts_join p h
  have hne : p.parts ≠ [] := by simp [parts, splitSlashes_ne_nil]
  rw [hparts]
  cases front with
  | nil =>
    rcases hfront with hp | hp
    · exact absurd hp hne
    · simp [hp, hdot]
  | cons name front =>
    rcases hfront with hp | hp
    · simp [hp]
    · simp [hp]

/-- A name is one step more. -/
theorem steps_join (p : Path) {q : String} (h : IsStep q) (hdot : q ≠ ".") :
    (p.join q).steps = p.steps ++ [q] := by
  obtain ⟨front, hparts, hfront⟩ := exists_parts_join p h
  have hrest : ((p.join q).parts.filter fun part => part ≠ "" ∧ part ≠ ".") =
      (p.parts.filter fun part => part ≠ "" ∧ part ≠ ".") ++ [q] := by
    rw [hparts]
    rcases hfront with hp | hp
    · simp [hp, h.nonempty, hdot]
    · simp [hp, h.nonempty, hdot]
  have hhead := head?_parts_join p h hdot
  unfold steps
  dsimp only
  rw [isAbsolute_join p h, hrest]
  simp [hhead]

end Path

namespace Workspace

open TaskGen.Path

/-! ### Escaping -/

def unescape : List Char → List Char
  | '%' :: '2' :: '5' :: rest => '%' :: unescape rest
  | '%' :: '2' :: 'F' :: rest => '/' :: unescape rest
  | '%' :: '2' :: 'E' :: rest => '.' :: unescape rest
  | '%' :: rest => unescape rest
  | c :: rest => c :: unescape rest
  | [] => []

theorem unescape_escapeChar (c : Char) (rest : List Char) :
    unescape (escapeChar c ++ rest) = c :: unescape rest := by
  by_cases hpercent : c = '%'
  · subst hpercent
    rfl
  · by_cases hslash : c = '/'
    · subst hslash
      rfl
    · rw [escapeChar, if_neg hpercent, if_neg hslash, List.singleton_append]
      simp [unescape, hpercent]

theorem unescape_flatMap (s : List Char) : unescape (s.flatMap escapeChar) = s := by
  induction s with
  | nil => rfl
  | cons c s ih => rw [List.flatMap_cons, unescape_escapeChar, ih]

theorem unescape_escape (id : String) : unescape (escape id).toList = id.toList := by
  rw [escape]
  split
  · next h => rw [h]; rfl
  · split
    · next h => rw [h]; rfl
    · split
      · next h => rw [h]; rfl
      · rw [String.toList_ofList, unescape_flatMap]

theorem escape_injective : Function.Injective escape := by
  intro a b h
  rw [← String.toList_inj, ← unescape_escape a, ← unescape_escape b, h]

theorem slash_notMem_escape (id : String) : '/' ∉ (escape id).toList := by
  rw [escape]
  split
  · decide
  · split
    · decide
    · split
      · decide
      · rw [String.toList_ofList, List.mem_flatMap]
        rintro ⟨c, _, hc⟩
        rw [escapeChar] at hc
        split at hc
        · exact absurd hc (by decide)
        · split at hc
          · exact absurd hc (by decide)
          · next _ hslash => exact hslash (List.mem_singleton.1 hc).symm

theorem isStep_escape (id : String) : IsStep (escape id) where
  nonempty h := by
    have hid : id = "" := by
      rw [← String.toList_inj, ← unescape_escape id, h]
      rfl
    rw [hid] at h
    exact absurd h (by decide)
  slashless := slash_notMem_escape id

/-- No identifier leads up or stays where it is. -/
theorem escape_ne_dots (id : String) : escape id ≠ "." ∧ escape id ≠ ".." := by
  constructor
  · intro h
    have hid : id = "." := by
      rw [← String.toList_inj, ← unescape_escape id, h]
      rfl
    rw [hid] at h
    exact absurd h (by decide)
  · intro h
    have hid : id = ".." := by
      rw [← String.toList_inj, ← unescape_escape id, h]
      rfl
    rw [hid] at h
    exact absurd h (by decide)

theorem isStep_initialTask : IsStep initialTask where
  nonempty := by decide
  slashless := by decide

theorem isStep_abstractTasks : IsStep abstractTasks where
  nonempty := by decide
  slashless := by decide

/-! ### Directories -/

variable (w : Workspace)

theorem trail_abstractDir (id : AbstractTaskId) :
    trail (w.abstractDir id) = trail w.root ++ [escape id.fragment, escape id.classKey] := by
  rw [abstractDir, trail_join _ (isStep_escape _), trail_join _ (isStep_escape _),
    List.append_assoc]
  rfl

theorem trail_modelDir (id : AbstractTaskId) (model : String) :
    trail (w.modelDir id model) = trail (w.abstractDir id) ++ [escape model] := by
  rw [modelDir, trail_join _ (isStep_escape _)]

theorem trail_taskDir (id : TaskId) :
    trail (w.taskDir id) = trail w.root ++
      [escape id.fragment, escape id.classKey, escape id.model, escape id.requirement] := by
  rw [taskDir, trail_join _ (isStep_escape _), trail_modelDir, trail_abstractDir]
  simp [TaskId.abstractId]

theorem abstractDir_injective : Function.Injective w.abstractDir := by
  intro a b h
  have htrail := congrArg trail h
  rw [trail_abstractDir, trail_abstractDir, List.append_cancel_left_eq] at htrail
  simp only [List.cons.injEq, escape_injective.eq_iff, and_true] at htrail
  cases a
  cases b
  simp_all

theorem modelDir_injective (id : AbstractTaskId) : Function.Injective (w.modelDir id) := by
  intro a b h
  have htrail := congrArg trail h
  rw [trail_modelDir, trail_modelDir, List.append_cancel_left_eq] at htrail
  simpa [escape_injective.eq_iff] using htrail

theorem taskDir_injective : Function.Injective w.taskDir := by
  intro a b h
  have htrail := congrArg trail h
  rw [trail_taskDir, trail_taskDir, List.append_cancel_left_eq] at htrail
  simp only [List.cons.injEq, escape_injective.eq_iff, and_true] at htrail
  cases a
  cases b
  simp_all

theorem taskDir_ne_abstractDir (id : TaskId) (a : AbstractTaskId) :
    w.taskDir id ≠ w.abstractDir a := by
  intro h
  have hlength := congrArg (fun p => (trail p).length) h
  rw [trail_taskDir, trail_abstractDir] at hlength
  simp at hlength

end Workspace
end TaskGen
