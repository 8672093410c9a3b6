import Mathlib
import TaskGen.Proofs.FileTree

/-!
The directories of a workspace as lists of names below its root.  Different tasks have different
lists of the same length, so nothing is below the directories of both, and what is removed with
one of them is not missing in the other one.

Main statement: `layout`.
-/

namespace TaskGen

/-- A name that leads down, not up, and not nowhere. -/
structure IsName (q : String) : Prop extends Path.IsStep q where
  ne_dot : q ≠ "."
  ne_dots : q ≠ ".."

/-! ### Names below a path -/

namespace Path

def descend (p : Path) (names : List String) : Path := names.foldl Path.join p

variable {names : List String} (h : ∀ q ∈ names, IsName q)
include h

theorem steps_descend (p : Path) : (p.descend names).steps = p.steps ++ names := by
  induction names generalizing p with
  | nil => exact (List.append_nil _).symm
  | cons q names ih =>
    have hq := h q List.mem_cons_self
    have hnames : ∀ q' ∈ names, IsName q' := fun q' hq' => h q' (List.mem_cons_of_mem q hq')
    show ((p.join q).descend names).steps = _
    rw [ih hnames, steps_join p hq.toIsStep hq.ne_dot, List.append_assoc, List.singleton_append]

theorem trail_descend (p : Path) : trail (p.descend names) = trail p ++ names := by
  induction names generalizing p with
  | nil => exact (List.append_nil _).symm
  | cons q names ih =>
    have hq := h q List.mem_cons_self
    have hnames : ∀ q' ∈ names, IsName q' := fun q' hq' => h q' (List.mem_cons_of_mem q hq')
    show trail ((p.join q).descend names) = _
    rw [ih hnames, trail_join p hq.toIsStep, List.append_assoc, List.singleton_append]

theorem isAbsolute_descend (p : Path) : (p.descend names).isAbsolute = p.isAbsolute := by
  induction names generalizing p with
  | nil => rfl
  | cons q names ih =>
    have hq := h q List.mem_cons_self
    have hnames : ∀ q' ∈ names, IsName q' := fun q' hq' => h q' (List.mem_cons_of_mem q hq')
    show ((p.join q).descend names).isAbsolute = _
    rw [ih hnames, isAbsolute_join p hq.toIsStep]

end Path

namespace FileTree

open TaskGen.Path

/-- A slash at the end leads no further. -/
theorem placeOf_eq_follow (here : Location) (p : Path) :
    placeOf here p = follow (if p.isAbsolute then [] else here) (trail p) := by
  rw [placeOf, names, follow_append, ← trail]
  cases p.parts.getLast? == some ""
  · rfl
  · rfl

theorem placeOf_descend {ns : List String} (h : ∀ q ∈ ns, IsName q) (here : Location)
    (p : Path) : placeOf here (p.descend ns) = placeOf here p ++ ns := by
  have hdots : ∀ q ∈ ns, q ≠ "." ∧ q ≠ ".." := fun q hq => ⟨(h q hq).ne_dot, (h q hq).ne_dots⟩
  rw [placeOf_eq_follow, placeOf_eq_follow, isAbsolute_descend h, trail_descend h, follow_append,
    follow_of_ne_dots _ hdots]

/-! ### Removing -/

/-- What is not below a place is still there when all below it is gone. -/
theorem get?_prune_of_not_prefix {loc other : Location} (h : ¬ loc <+: other) (t : FileTree) :
    (t.prune loc).get? other = t.get? other := by
  have hkept : ∀ entries : List (Location × Entry),
      (entries.filter fun p => !loc.isPrefixOf p.1).lookup other = entries.lookup other := by
    intro entries
    induction entries with
    | nil => rfl
    | cons p rest ih =>
      obtain ⟨place, e⟩ := p
      by_cases hplace : loc <+: place
      · have hne : (other == place) = false := by
          rw [beq_eq_false_iff_ne]
          intro heq
          exact h (heq ▸ hplace)
        have hdropped : loc.isPrefixOf place = true := List.isPrefixOf_iff_prefix.2 hplace
        rw [List.filter_cons_of_neg (by simp [hdropped]), List.lookup_cons, hne, ih]
      · have hstays : ¬ loc.isPrefixOf place = true := by rwa [List.isPrefixOf_iff_prefix]
        rw [List.filter_cons_of_pos (by simp [hstays]), List.lookup_cons, List.lookup_cons, ih]
  unfold get? prune
  rw [hkept]

theorem eq_prune_of_removeDir {t t' : FileTree} {p : Path} (h : t.removeDir p = .ok t') :
    t' = t.prune (placeOf t.here p) := by
  cases hl : t.locate p with
  | error e => simp [removeDir, hl, bind, Except.bind] at h
  | ok place =>
    rw [← locate_eq_placeOf hl]
    simp only [removeDir, hl, bind, Except.bind] at h
    split at h
    · exact (Except.ok.inj h).symm
    · cases h
    · cases h

end FileTree

/-! ### Two directories -/

open TaskGen.FileTree

/-- From the root so many names lead down to the directory, and nothing leads up. -/
def LiesBelow (root dir : Path) (depth : Nat) : Prop :=
  ∃ names : List String, names.length = depth ∧ (∀ q ∈ names, IsName q) ∧
    dir.steps = root.steps ++ names ∧ ∀ here, placeOf here dir = placeOf here root ++ names

/-- Nothing is below both paths. -/
structure Apart (p q : Path) : Prop where
  steps : ∀ steps, p.steps <+: steps → ¬ q.steps <+: steps
  places : ∀ here loc, placeOf here p <+: loc → ¬ placeOf here q <+: loc
  /-- Removing the directory at the first path leaves alone what is below the second one. -/
  spared : ∀ t t' : FileTree, t.removeDir p = .ok t' →
    ∀ loc, placeOf t.here q <+: loc → t'.get? loc = t.get? loc

section
variable {as bs : List String}

/-- Of two lists of the same length below the same one, none leads through the other. -/
theorem eq_of_prefix_append {front l : List String} (length : as.length = bs.length)
    (h : front ++ as <+: l) (h' : front ++ bs <+: l) : as = bs := by
  have hlength : (front ++ as).length = (front ++ bs).length := by
    rw [List.length_append, List.length_append, length]
  have heq := (List.prefix_of_prefix_length_le h h' (Nat.le_of_eq hlength)).eq_of_length hlength
  exact List.append_cancel_left heq

variable (ha : ∀ q ∈ as, IsName q)
include ha

theorem liesBelow_descend (root : Path) : LiesBelow root (root.descend as) as.length :=
  ⟨as, rfl, ha, Path.steps_descend ha root, fun here => placeOf_descend ha here root⟩

theorem apart_descend (hb : ∀ q ∈ bs, IsName q) (length : as.length = bs.length) (ne : as ≠ bs)
    (root : Path) : Apart (root.descend as) (root.descend bs) := by
  have hplaces : ∀ here loc, placeOf here (root.descend as) <+: loc →
      ¬ placeOf here (root.descend bs) <+: loc := by
    intro here loc h h'
    rw [placeOf_descend ha] at h
    rw [placeOf_descend hb] at h'
    exact ne (eq_of_prefix_append length h h')
  refine ⟨fun steps h h' => ?_, hplaces, fun t t' h loc hloc => ?_⟩
  · rw [Path.steps_descend ha] at h
    rw [Path.steps_descend hb] at h'
    exact ne (eq_of_prefix_append length h h')
  · rw [eq_prune_of_removeDir h]
    exact get?_prune_of_not_prefix (fun h' => hplaces t.here loc h' hloc) t

theorem steps_descend_inj (hb : ∀ q ∈ bs, IsName q) (root : Path) :
    (root.descend as).steps = (root.descend bs).steps ↔ as = bs := by
  rw [Path.steps_descend ha, Path.steps_descend hb, List.append_cancel_left_eq]

end

namespace Workspace

open TaskGen.Path

/-! ### The names of a workspace -/

def abstractNames (id : AbstractTaskId) : List String := [escape id.fragment, escape id.classKey]

def modelNames (id : AbstractTaskId) (model : String) : List String :=
  abstractNames id ++ [escape model]

def taskNames (id : TaskId) : List String :=
  modelNames id.abstractId id.model ++ [escape id.requirement]

def attemptNames (id : TaskId) (attempt : Nat) : List String :=
  if attempt = 0 then taskNames id else taskNames id ++ ["attempt-" ++ toString attempt]

theorem isName_escape (id : String) : IsName (escape id) where
  toIsStep := isStep_escape id
  ne_dot := (escape_ne_dots id).1
  ne_dots := (escape_ne_dots id).2

theorem isName_attempt (attempt : Nat) : IsName ("attempt-" ++ toString attempt) := by
  have hhead : ("attempt-" ++ toString attempt).toList.head? = some 'a' := by simp
  have hslash : '/' ∉ (toString attempt).toList := by
    intro h
    rw [Nat.toString_eq_ofList_toDigits, String.toList_ofList] at h
    exact absurd (Nat.isDigit_of_mem_toDigits (by decide) (by decide) h) (by decide)
  refine ⟨⟨?_, ?_⟩, ?_, ?_⟩
  · intro h
    rw [h] at hhead
    cases hhead
  · rw [String.toList_append, List.mem_append, not_or]
    exact ⟨by decide, hslash⟩
  · intro h
    rw [h] at hhead
    cases hhead
  · intro h
    rw [h] at hhead
    cases hhead

theorem isName_abstractNames (id : AbstractTaskId) : ∀ q ∈ abstractNames id, IsName q := by
  intro q hq
  simp only [abstractNames, List.mem_cons, List.not_mem_nil, or_false] at hq
  rcases hq with rfl | rfl
  · exact isName_escape _
  · exact isName_escape _

theorem isName_append {names : List String} (h : ∀ q ∈ names, IsName q) {name : String}
    (last : IsName name) : ∀ q ∈ names ++ [name], IsName q := by
  intro q hq
  rcases List.mem_append.1 hq with hfront | hlast
  · exact h q hfront
  · rw [List.mem_singleton.1 hlast]
    exact last

theorem isName_modelNames (id : AbstractTaskId) (model : String) :
    ∀ q ∈ modelNames id model, IsName q :=
  isName_append (isName_abstractNames id) (isName_escape model)

theorem isName_taskNames (id : TaskId) : ∀ q ∈ taskNames id, IsName q :=
  isName_append (isName_modelNames _ _) (isName_escape _)

theorem isName_attemptNames (id : TaskId) (attempt : Nat) :
    ∀ q ∈ attemptNames id attempt, IsName q := by
  unfold attemptNames
  split
  · exact isName_taskNames id
  · exact isName_append (isName_taskNames id) (isName_attempt attempt)

theorem abstractNames_injective : Function.Injective abstractNames := by
  intro a b h
  simp only [abstractNames, List.cons.injEq, escape_injective.eq_iff, and_true] at h
  obtain ⟨hfragment, hclass⟩ := h
  cases a
  cases b
  simp_all

theorem modelNames_inj {a b : AbstractTaskId} {m n : String} :
    modelNames a m = modelNames b n ↔ a = b ∧ m = n := by
  rw [modelNames, modelNames]
  constructor
  · intro h
    obtain ⟨hfront, hlast⟩ := List.append_inj' h rfl
    exact ⟨abstractNames_injective hfront, escape_injective (List.cons.inj hlast).1⟩
  · rintro ⟨rfl, rfl⟩
    rfl

theorem taskNames_injective : Function.Injective taskNames := by
  intro a b h
  obtain ⟨hfront, hlast⟩ := List.append_inj' h rfl
  obtain ⟨hpair, hmodel⟩ := modelNames_inj.1 hfront
  have hrequirement := escape_injective (List.cons.inj hlast).1
  cases a
  cases b
  simp_all [TaskId.abstractId]

theorem length_attemptNames (id : TaskId) (attempt : Nat) :
    (attemptNames id attempt).length = if attempt = 0 then 4 else 5 := by
  unfold attemptNames
  split
  · rfl
  · rw [List.length_append]
    rfl

theorem attemptNames_inj {a b : TaskId} {m n : Nat} (h : attemptNames a m = attemptNames b n) :
    a = b ∧ m = n := by
  have hlength := congrArg List.length h
  rw [length_attemptNames, length_attemptNames] at hlength
  unfold attemptNames at h
  by_cases hm : m = 0
  · by_cases hn : n = 0
    · rw [if_pos hm, if_pos hn] at h
      exact ⟨taskNames_injective h, hm.trans hn.symm⟩
    · simp [hm, hn] at hlength
  · by_cases hn : n = 0
    · simp [hm, hn] at hlength
    · rw [if_neg hm, if_neg hn] at h
      obtain ⟨hfront, hlast⟩ := List.append_inj' h rfl
      have hnumber := (String.append_right_inj _).1 (List.cons.inj hlast).1
      exact ⟨taskNames_injective hfront, Nat.repr_inj.1 hnumber⟩

/-! ### The directories of a workspace -/

variable (w : Workspace)

theorem abstractDir_eq (id : AbstractTaskId) :
    w.abstractDir id = w.root.descend (abstractNames id) := rfl

theorem modelDir_eq (id : AbstractTaskId) (model : String) :
    w.modelDir id model = w.root.descend (modelNames id model) := rfl

theorem taskDir_eq (id : TaskId) : w.taskDir id = w.root.descend (taskNames id) := rfl

theorem attemptDir_eq (id : TaskId) (attempt : Nat) :
    w.attemptDir id attempt = w.root.descend (attemptNames id attempt) := by
  unfold attemptDir attemptNames
  split
  · rfl
  · rfl

structure Layout (w : Workspace) : Prop where
  abstractDepth : ∀ id, LiesBelow w.root (w.abstractDir id) 2
  modelDepth : ∀ id model, LiesBelow w.root (w.modelDir id model) 3
  taskDepth : ∀ id, LiesBelow w.root (w.taskDir id) 4
  attemptDepth : ∀ id attempt,
    LiesBelow w.root (w.attemptDir id attempt) (if attempt = 0 then 4 else 5)
  abstractDirs : ∀ a b, (w.abstractDir a).steps = (w.abstractDir b).steps → a = b
  modelDirs : ∀ a b m n, (w.modelDir a m).steps = (w.modelDir b n).steps → a = b ∧ m = n
  taskDirs : ∀ a b, (w.taskDir a).steps = (w.taskDir b).steps → a = b
  attemptDirs : ∀ a b m n, (w.attemptDir a m).steps = (w.attemptDir b n).steps → a = b ∧ m = n
  abstractTrees : ∀ a b, a ≠ b → Apart (w.abstractDir a) (w.abstractDir b)
  taskTrees : ∀ a b, a ≠ b → Apart (w.taskDir a) (w.taskDir b)

/-- Whatever the root and the identifiers are, every directory is a fixed number of names below
the root, no two are the same, and those of different tasks have nothing in common. -/
theorem layout (w : Workspace) : Layout w where
  abstractDepth id := liesBelow_descend (isName_abstractNames id) w.root
  modelDepth id model := liesBelow_descend (isName_modelNames id model) w.root
  taskDepth id := liesBelow_descend (isName_taskNames id) w.root
  attemptDepth id attempt := by
    rw [attemptDir_eq, ← length_attemptNames id attempt]
    exact liesBelow_descend (isName_attemptNames id attempt) w.root
  abstractDirs a b h := by
    rw [abstractDir_eq, abstractDir_eq,
      steps_descend_inj (isName_abstractNames a) (isName_abstractNames b)] at h
    exact abstractNames_injective h
  modelDirs a b m n h := by
    rw [modelDir_eq, modelDir_eq,
      steps_descend_inj (isName_modelNames a m) (isName_modelNames b n)] at h
    exact modelNames_inj.1 h
  taskDirs a b h := by
    rw [taskDir_eq, taskDir_eq,
      steps_descend_inj (isName_taskNames a) (isName_taskNames b)] at h
    exact taskNames_injective h
  attemptDirs a b m n h := by
    rw [attemptDir_eq, attemptDir_eq,
      steps_descend_inj (isName_attemptNames a m) (isName_attemptNames b n)] at h
    exact attemptNames_inj h
  abstractTrees a b hne := by
    refine apart_descend (isName_abstractNames a) (isName_abstractNames b) rfl ?_ w.root
    exact abstractNames_injective.ne hne
  taskTrees a b hne := by
    refine apart_descend (isName_taskNames a) (isName_taskNames b) rfl ?_ w.root
    exact taskNames_injective.ne hne

example : (Workspace.mk ⟨"/w/"⟩).attemptDir ⟨"..", "a/b", "%", ""⟩ 2 =
    ⟨"/w/%2E%2E/a%2Fb/%25/%/attempt-2"⟩ := by
  decide +kernel

end Workspace
end TaskGen
