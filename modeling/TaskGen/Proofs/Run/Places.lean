import TaskGen.Proofs.Run.Moves

/-!
The places that a report has for the outcomes of a run.  How many there are for a fragment and
a class depends on the models that are found, and so on the completions.
-/

namespace TaskGen

structure Place where
  pair : AbstractTaskId
  model : Option String
  requirement : String
  deriving DecidableEq, Repr

def TaskOutcome.place (o : TaskOutcome) : Place :=
  ⟨⟨o.fragment, o.classKey⟩, o.model, o.requirement⟩

def TaskId.place (id : TaskId) : Place := ⟨id.abstractId, some id.model, id.requirement⟩

theorem TaskId.place_injective : Function.Injective TaskId.place := by
  intro a b h
  cases a
  cases b
  simp only [TaskId.place, abstractId, Place.mk.injEq, AbstractTaskId.mk.injEq,
    Option.some.injEq] at h
  obtain ⟨⟨rfl, rfl⟩, rfl, rfl⟩ := h
  rfl

/-- An outcome without a model is not one of a task. -/
theorem TaskOutcome.place_ne_of_unmodelled (o : TaskOutcome) (h : o.model = none) (id : TaskId) :
    o.place ≠ id.place := by
  intro heq
  have hmodel : o.model = some id.model := congrArg Place.model heq
  rw [h] at hmodel
  cases hmodel

namespace RequirementClass

/-- The places of a class in the report on a fragment: one for each member if there is no
model, and otherwise one for each model and each member. -/
def places (c : RequirementClass) (id : AbstractTaskId) (models : List String) : List Place :=
  if models.isEmpty then c.identifiers.map fun q => ⟨id, none, q⟩
  else models.flatMap fun m => c.identifiers.map fun q => ⟨id, some m, q⟩

theorem places_of_ne_nil (c : RequirementClass) (id : AbstractTaskId) {models : List String}
    (h : models ≠ []) :
    c.places id models = models.flatMap fun m => c.identifiers.map fun q => ⟨id, some m, q⟩ := by
  rw [places, if_neg (by simpa using h)]

theorem pair_of_mem_places {c : RequirementClass} {id : AbstractTaskId} {models : List String}
    {p : Place} (h : p ∈ c.places id models) : p.pair = id := by
  unfold places at h
  split at h
  · obtain ⟨q, _, rfl⟩ := List.mem_map.1 h
    rfl
  · obtain ⟨m, _, hm⟩ := List.mem_flatMap.1 h
    obtain ⟨q, _, rfl⟩ := List.mem_map.1 hm
    rfl

theorem nodup_places {c : RequirementClass} (members : c.identifiers.Nodup)
    (id : AbstractTaskId) {models : List String} (distinct : models.Nodup) :
    (c.places id models).Nodup := by
  unfold places
  split
  · refine members.map (fun q q' h => ?_)
    cases h
    rfl
  · refine Run.nodup_flatMap_map (fun m m' q q' h => ?_) distinct members
    cases h
    exact ⟨rfl, rfl⟩

end RequirementClass

namespace Completion

/-- The abstract task that the item is or comes from. -/
def pair : Completion → AbstractTaskId
  | .abstractTask t _ => t.id
  | .task t _ => t.id.abstractId

def modelsFor (id : AbstractTaskId) : Completion → List String
  | .abstractTask t models => if t.id = id then (Run.modelsOf models).map (·.id) else []
  | .task _ _ => []

def statusOf? (id : TaskId) : Completion → Option Status
  | .abstractTask _ _ => none
  | .task t solution => if t.id = id then some solution.status else none

end Completion

namespace Run

open State

/-! ### What the completions so far tell -/

def yielded (id : AbstractTaskId) (cs : List Completion) : List String :=
  cs.flatMap (Completion.modelsFor id)

def lastStatus? (id : TaskId) (cs : List Completion) : Option Status :=
  (cs.filterMap (Completion.statusOf? id)).getLast?

variable {cs : List Completion} {c : Completion}

theorem yielded_append (id : AbstractTaskId) (cs : List Completion) (c : Completion) :
    yielded id (cs ++ [c]) = yielded id cs ++ c.modelsFor id := by
  rw [yielded, List.flatMap_append, List.flatMap_singleton, yielded]

theorem yielded_eq_nil {id : AbstractTaskId} (h : ∀ c ∈ cs, c.pair ≠ id) : yielded id cs = [] := by
  rw [yielded, List.flatMap_eq_nil_iff]
  intro c hc
  cases c with
  | abstractTask t models => exact if_neg (h _ hc)
  | task t solution => rfl

theorem lastStatus?_append_self (t : Task) (solution : Solution) (cs : List Completion) :
    lastStatus? t.id (cs ++ [.task t solution]) = some solution.status := by
  have hlast : Completion.statusOf? t.id (.task t solution) = some solution.status := if_pos rfl
  rw [lastStatus?, List.filterMap_append, List.filterMap_cons_some hlast, List.filterMap_nil,
    List.getLast?_append]
  rfl

theorem lastStatus?_append_of_ne {id : TaskId} (h : c.key ≠ .task id) (cs : List Completion) :
    lastStatus? id (cs ++ [c]) = lastStatus? id cs := by
  have hnone : c.statusOf? id = none := by
    cases c with
    | abstractTask t models => rfl
    | task t solution =>
      refine if_neg (fun heq => h ?_)
      rw [← heq]
      rfl
  rw [lastStatus?, List.filterMap_append, List.filterMap_cons_none hnone, List.filterMap_nil,
    List.append_nil, lastStatus?]

theorem lastStatus?_eq_none {id : TaskId} (h : ∀ c ∈ cs, c.pair ≠ id.abstractId) :
    lastStatus? id cs = none := by
  rw [lastStatus?, List.getLast?_eq_none_iff, List.filterMap_eq_nil_iff]
  intro c hc
  cases c with
  | abstractTask t models => rfl
  | task t solution =>
    refine if_neg (fun heq => h _ hc ?_)
    rw [← heq]
    rfl

/-! ### What is owed -/

/-- The places that the report has for an abstract task once all of its models are known. -/
def entries (r : Run) (id : AbstractTaskId) (models : List String) : List Place :=
  match Dict.find? r.classes id.classKey with
  | none => []
  | some c => c.places id models

def owed (r : Run) : WorkItem → List Place
  | .abstractTask t => r.entries t.id []
  | .task t => [t.id.place]

def debts (r : Run) (items : Multiset WorkItem) : Multiset Place :=
  items.bind fun item => (r.owed item : Multiset Place)

@[simp] theorem debts_zero (r : Run) : r.debts 0 = 0 := Multiset.zero_bind _

@[simp] theorem debts_add (r : Run) (items items' : Multiset WorkItem) :
    r.debts (items + items') = r.debts items + r.debts items' := Multiset.add_bind _ _ _

@[simp] theorem debts_cons (r : Run) (item : WorkItem) (items : Multiset WorkItem) :
    r.debts (item ::ₘ items) = ↑(r.owed item) + r.debts items := Multiset.cons_bind _ _ _

theorem debts_coe (r : Run) (items : List WorkItem) :
    r.debts (items : Multiset WorkItem) = ↑(items.flatMap r.owed) := Multiset.coe_bind _ _

/-- The places that take over from those of an item when its completion is dealt with. -/
def owedAfter (r : Run) : Completion → List Place
  | .abstractTask t models => r.entries t.id ((modelsOf models).map (·.id))
  | .task t _ => [t.id.place]

/-- The places of the whole report, as far as they can be known. -/
def expected (r : Run) (pairs : List AbstractTaskId) (cs : List Completion) : List Place :=
  pairs.flatMap fun id => r.entries id (yielded id cs)

variable {r : Run} {pairs : List AbstractTaskId}

theorem pair_of_mem_entries {id : AbstractTaskId} {models : List String} {p : Place}
    (h : p ∈ r.entries id models) : p.pair = id := by
  unfold entries at h
  split at h
  · cases h
  · exact RequirementClass.pair_of_mem_places h

theorem nodup_expected (wf : r.classes.WellFormed) (distinct : pairs.Nodup)
    (models : ∀ id, (yielded id cs).Nodup) : (r.expected pairs cs).Nodup := by
  rw [expected, List.nodup_flatMap]
  constructor
  · intro id _
    unfold entries
    split
    · exact List.nodup_nil
    · next c hc => exact c.nodup_places (nodup_identifiers wf hc) id (models id)
  · refine distinct.imp (fun {id id'} hne => ?_)
    intro p hp hp'
    exact hne ((pair_of_mem_entries hp).symm.trans (pair_of_mem_entries hp'))

/-- One more completion replaces what its item is owed, and nothing else. -/
theorem expected_append (distinct : pairs.Nodup)
    (begun : ∀ t, c.item = .abstractTask t → t.id ∈ pairs ∧ yielded t.id cs = []) :
    (↑(r.expected pairs (cs ++ [c])) : Multiset Place) + ↑(r.owed c.item) =
      ↑(r.expected pairs cs) + ↑(r.owedAfter c) := by
  cases c with
  | task t solution =>
    have hsame : ∀ id, yielded id (cs ++ [.task t solution]) = yielded id cs := by
      intro id
      rw [yielded_append]
      exact List.append_nil _
    simp only [expected, hsame]
    rfl
  | abstractTask t models =>
    obtain ⟨hmem, hnil⟩ := begun t rfl
    -- Only what is said of this abstract task changes, and it is said at one place of the list.
    obtain ⟨before, after, rfl⟩ := List.append_of_mem hmem
    have hothers : ∀ id ∈ before ++ after, id ≠ t.id := by
      have hnodup := (List.perm_middle (a := t.id)).nodup_iff.1 distinct
      intro id hid heq
      exact (List.nodup_cons.1 hnodup).1 (heq ▸ hid)
    have hsame : ∀ id ∈ before ++ after,
        yielded id (cs ++ [.abstractTask t models]) = yielded id cs := by
      intro id hid
      rw [yielded_append]
      have hnone : Completion.modelsFor id (.abstractTask t models) = [] :=
        if_neg (fun heq => hothers id hid heq.symm)
      rw [hnone, List.append_nil]
    have hnew : yielded t.id (cs ++ [.abstractTask t models]) = (modelsOf models).map (·.id) := by
      rw [yielded_append, hnil, List.nil_append]
      exact if_pos rfl
    have hbefore : before.flatMap (fun id => r.entries id
        (yielded id (cs ++ [.abstractTask t models]))) =
          before.flatMap (fun id => r.entries id (yielded id cs)) :=
      List.flatMap_congr fun id hid => by rw [hsame id (List.mem_append_left _ hid)]
    have hafter : after.flatMap (fun id => r.entries id
        (yielded id (cs ++ [.abstractTask t models]))) =
          after.flatMap (fun id => r.entries id (yielded id cs)) :=
      List.flatMap_congr fun id hid => by rw [hsame id (List.mem_append_right _ hid)]
    simp only [expected, List.flatMap_append, List.flatMap_cons, hbefore, hafter, hnew, hnil,
      ← Multiset.coe_add, owedAfter, owed, Completion.item]
    abel

end Run
end TaskGen
