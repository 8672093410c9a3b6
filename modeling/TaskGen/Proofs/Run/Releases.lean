import TaskGen.Proofs.Run.Effects
import TaskGen.Proofs.Workspace

/-!
When the directories are given back.  The number of open tasks of an abstract task is at any
time the number of its tasks that live.  So the directory of a task goes once its outcome has
been recorded, that of an abstract task goes with the last of its tasks, and none goes twice.

Main statement: `releases_of_trace`.
-/

namespace TaskGen

namespace Run

open State

/-! ### The tasks that are open -/

def openCount (id : AbstractTaskId) (items : Multiset WorkItem) : Nat :=
  items.countP fun item => item.origin? = some id

section
variable {id : AbstractTaskId} {items : Multiset WorkItem}

theorem openCount_cons (item : WorkItem) :
    openCount id (item ::ₘ items) =
      openCount id items + if item.origin? = some id then 1 else 0 :=
  Multiset.countP_cons _ _ _

theorem openCount_fanned {tasks : List WorkItem} {a : AbstractTaskId}
    (own : ∀ i ∈ tasks, i.origin? = some a) :
    openCount id (items + ↑tasks) =
      openCount id items + if id = a then tasks.length else 0 := by
  rw [openCount, Multiset.countP_add, ← openCount, Multiset.coe_countP]
  congr 1
  by_cases h : id = a
  · rw [if_pos h, List.countP_eq_length]
    intro i hi
    simp [own i hi, h]
  · rw [if_neg h, List.countP_eq_zero]
    intro i hi
    simpa [own i hi] using Ne.symm h

theorem openCount_eq_zero (h : id ∉ items.map WorkItem.pair) : openCount id items = 0 := by
  rw [openCount, Multiset.countP_eq_zero]
  intro i hi horigin
  exact h (WorkItem.pair_of_origin horigin ▸ Multiset.mem_map_of_mem WorkItem.pair hi)

/-- An abstract task that is still to come has no tasks. -/
theorem notMem_pair_of_abstract {t : AbstractTask}
    (apart : KeysApart ((WorkItem.abstractTask t ::ₘ items).map WorkItem.key)) :
    t.id ∉ items.map WorkItem.pair := by
  rw [Multiset.map_cons] at apart
  intro hmem
  obtain ⟨i, hi, hpair⟩ := Multiset.mem_map.1 hmem
  have hkey := Multiset.mem_map_of_mem WorkItem.key hi
  cases i with
  | abstractTask t' =>
    refine (Multiset.nodup_cons.1 apart.nodup).1 ?_
    have heq : (WorkItem.abstractTask t).key = (WorkItem.abstractTask t').key :=
      congrArg ItemKey.abstractTask hpair.symm
    rw [heq]
    exact hkey
  | task t' =>
    refine apart.ahead t'.id (Multiset.mem_cons_of_mem hkey) ?_
    have hid : t'.id.abstractId = t.id := hpair
    rw [hid]
    exact Multiset.mem_cons_self _ _

/-- While a task lives its abstract task is over, so only tasks are left of it. -/
theorem notMem_pair_of_task {t : Task}
    (apart : KeysApart ((WorkItem.task t ::ₘ items).map WorkItem.key))
    (none : openCount t.id.abstractId items = 0) : t.id.abstractId ∉ items.map WorkItem.pair := by
  rw [Multiset.map_cons] at apart
  intro hmem
  obtain ⟨i, hi, hpair⟩ := Multiset.mem_map.1 hmem
  cases i with
  | abstractTask t' =>
    refine apart.ahead t.id (Multiset.mem_cons_self _ _) ?_
    have hid : t'.id = t.id.abstractId := hpair
    rw [← hid]
    exact Multiset.mem_cons_of_mem (Multiset.mem_map_of_mem WorkItem.key hi)
  | task t' =>
    rw [openCount, Multiset.countP_eq_zero] at none
    exact none _ hi (congrArg some hpair)

end

/-! ### The effects -/

def Effect.told? : Effect → Option (String × FinalStatus)
  | .complete requirement status => some (requirement, status)
  | _ => none

/-- The directory of a task goes only after its outcome was told. -/
def Recorded (w : Workspace) (effects : List Effect) (places : List Place) : Prop :=
  ∀ before id after, effects = before ++ .release (w.taskDir id) :: after →
    id.place ∈ places.take (before.filterMap Effect.told?).length

namespace Recorded

variable {w : Workspace} {effects : List Effect} {places : List Place}

theorem mono (h : Recorded w effects places) (places' : List Place) :
    Recorded w effects (places ++ places') := by
  intro before id after split
  rw [List.take_append]
  exact List.mem_append_left _ (h before id after split)

theorem concat (h : Recorded w effects places) {e : Effect}
    (told : ∀ id, e = .release (w.taskDir id) →
      id.place ∈ places.take (effects.filterMap Effect.told?).length) :
    Recorded w (effects ++ [e]) places := by
  intro before id after split
  rcases cases_of_concat_eq split with ⟨rfl, heq, _⟩ | ⟨init, hfront, _⟩
  · exact told id heq.symm
  · exact h before id init hfront

/-- Effects that release nothing of a task. -/
theorem append (h : Recorded w effects places) {new : List Effect}
    (other : ∀ id, .release (w.taskDir id) ∉ new) : Recorded w (effects ++ new) places := by
  induction new generalizing effects with
  | nil =>
    rw [List.append_nil]
    exact h
  | cons e new ih =>
    have hnext := h.concat (e := e) fun id he => absurd (he ▸ List.mem_cons_self) (other id)
    rw [List.append_cons]
    exact ih hnext fun id hid => other id (List.mem_cons_of_mem _ hid)

end Recorded

theorem count_complete (qs : List String) (status : FinalStatus) (dir : Path) :
    (qs.map (Effect.complete · status)).count (.release dir) = 0 := by
  rw [List.count_eq_zero]
  intro h
  obtain ⟨q, _, heq⟩ := List.mem_map.1 h
  cases heq

namespace Told

variable {s s' : State} {new : List Effect}

theorem count_release (h : Told s s' new) (dir : Path) :
    s'.effects.count (.release dir) =
      s.effects.count (.release dir) + new.count (.release dir) := by
  obtain ⟨totals, heq⟩ := h
  have hnone : (totals.map Effect.announce).count (.release dir) = 0 := by
    rw [List.count_eq_zero]
    intro hmem
    obtain ⟨n, _, hn⟩ := List.mem_map.1 hmem
    cases hn
  rw [heq, List.count_append, List.count_append, hnone, Nat.add_zero]

theorem filterMap_told? (h : Told s s' new) :
    s'.effects.filterMap Effect.told? =
      s.effects.filterMap Effect.told? ++ new.filterMap Effect.told? := by
  obtain ⟨totals, heq⟩ := h
  have hnone : (totals.map Effect.announce).filterMap Effect.told? = [] := by
    rw [List.filterMap_map, List.filterMap_eq_nil_iff]
    exact fun n _ => rfl
  rw [heq, List.filterMap_append, List.filterMap_append, hnone, List.append_nil]

theorem recorded (h : Told s s' new) {w : Workspace} {places : List Place}
    (recorded : Recorded w (s.effects ++ new) places) : Recorded w s'.effects places := by
  obtain ⟨totals, heq⟩ := h
  rw [heq]
  refine recorded.append fun id hmem => ?_
  obtain ⟨n, _, hn⟩ := List.mem_map.1 hmem
  cases hn

end Told

/-- The effects of the end of a task when `left` other ones are open: with the last one the
directory of the abstract task goes as well. -/
def farewell (w : Workspace) (t : Task) (status : FinalStatus) (left : Nat) : List Effect :=
  .complete t.id.requirement status :: .release (w.taskDir t.id) ::
    if left = 0 then [.release (w.abstractDir t.id.abstractId)] else []

section
variable (w : Workspace) (t : Task) (status : FinalStatus) (left : Nat)

theorem count_taskDir_farewell (id : TaskId) :
    (farewell w t status left).count (.release (w.taskDir id)) = if t.id = id then 1 else 0 := by
  have hother : (w.abstractDir t.id.abstractId) ≠ w.taskDir id :=
    (w.taskDir_ne_abstractDir id _).symm
  have hlast : (if left = 0 then [Effect.release (w.abstractDir t.id.abstractId)] else []).count
      (.release (w.taskDir id)) = 0 := by
    split <;> simp [hother]
  rw [farewell, List.count_cons, List.count_cons, hlast]
  simp [w.taskDir_injective.eq_iff]

theorem count_abstractDir_farewell (id : AbstractTaskId) :
    (farewell w t status left).count (.release (w.abstractDir id)) =
      if t.id.abstractId = id ∧ left = 0 then 1 else 0 := by
  have hother : w.taskDir t.id ≠ w.abstractDir id := w.taskDir_ne_abstractDir t.id id
  rw [farewell, List.count_cons, List.count_cons]
  by_cases hleft : left = 0
  · simp [hleft, hother, List.count_singleton, w.abstractDir_injective.eq_iff]
  · simp [hleft, hother]

theorem filterMap_farewell :
    (farewell w t status left).filterMap Effect.told? = [(t.id.requirement, status)] := by
  unfold farewell
  split <;> rfl

theorem Recorded.farewell {effects : List Effect} {places : List Place}
    (h : Recorded w effects places)
    (length : (effects.filterMap Effect.told?).length = places.length) :
    Recorded w (effects ++ farewell w t status left) (places ++ [t.id.place]) := by
  have hcomplete := (h.mono [t.id.place]).concat (e := .complete t.id.requirement status)
    fun id heq => by cases heq
  have hlength : ((effects ++ [Effect.complete t.id.requirement status]).filterMap
      Effect.told?).length = (places ++ [t.id.place]).length := by
    rw [List.filterMap_append, List.length_append, length, List.length_append]
    rfl
  -- The outcome is the last one, and all of them have been told.
  have hrelease := hcomplete.concat (e := .release (w.taskDir t.id)) fun id heq => by
    rw [hlength, List.take_length, ← w.taskDir_injective (Effect.release.inj heq)]
    exact List.mem_append_right _ (List.mem_singleton.2 rfl)
  rw [Run.farewell, List.append_cons, List.append_cons]
  refine hrelease.append fun id hmem => ?_
  split at hmem
  · exact w.taskDir_ne_abstractDir _ _ (Effect.release.inj (List.mem_singleton.1 hmem))
  · cases hmem

end

/-! ### What is in order -/

/-- The numbers of open tasks, what has been released and what has been told, while these items
live. -/
structure Tidy (r : Run) (pairs : List AbstractTaskId) (items : Multiset WorkItem)
    (s : State) : Prop where
  begun : ∀ i ∈ items, i.pair ∈ pairs
  counted : ∀ id, s.openTasks.lookup id =
    if openCount id items = 0 then none else some (openCount id items)
  abstractDirs : ∀ id, s.effects.count (.release (r.workspace.abstractDir id)) =
    if id ∈ pairs ∧ id ∉ items.map WorkItem.pair then 1 else 0
  taskDirs : ∀ id, s.effects.count (.release (r.workspace.taskDir id)) =
    (s.report.outcomes.map TaskOutcome.place).count id.place
  told : s.effects.filterMap Effect.told? =
    s.report.outcomes.map fun o => (o.requirement, o.status)
  recorded : Recorded r.workspace s.effects (s.report.outcomes.map TaskOutcome.place)

namespace Tidy

variable {r : Run} {pairs : List AbstractTaskId} {items : Multiset WorkItem} {s s' : State}

theorem barren {t : AbstractTask} {c : RequirementClass}
    (tidy : Tidy r pairs (.abstractTask t ::ₘ items) s)
    (apart : KeysApart ((WorkItem.abstractTask t ::ₘ items).map WorkItem.key))
    (outcomes : s'.report.outcomes =
      s.report.outcomes ++ c.identifiers.map (outcomeWithoutModel t.id))
    (openTasks : s'.openTasks = s.openTasks)
    (told : Told s s' (c.identifiers.map (.complete · .failed) ++
      [.release (r.workspace.abstractDir t.id)])) : Tidy r pairs items s' where
  begun i hi := tidy.begun i (Multiset.mem_cons_of_mem hi)
  counted id := by
    have hcount := tidy.counted id
    rw [openCount_cons] at hcount
    rw [openTasks]
    exact hcount
  abstractDirs id := by
    have hover := notMem_pair_of_abstract apart
    have hbegun := tidy.begun _ (Multiset.mem_cons_self _ _)
    rw [told.count_release, List.count_append, count_complete, tidy.abstractDirs,
      Multiset.map_cons]
    by_cases hid : id = t.id
    · rw [hid]
      simp [WorkItem.pair, hover, show t.id ∈ pairs from hbegun]
    · have hne : r.workspace.abstractDir t.id ≠ r.workspace.abstractDir id :=
        fun h => hid (r.workspace.abstractDir_injective h).symm
      simp [WorkItem.pair, hid, hne]
  taskDirs id := by
    have hplaces : ((c.identifiers.map (outcomeWithoutModel t.id)).map
        TaskOutcome.place).count id.place = 0 := by
      rw [List.count_eq_zero]
      intro hmem
      obtain ⟨o, ho, heq⟩ := List.mem_map.1 hmem
      obtain ⟨q, _, rfl⟩ := List.mem_map.1 ho
      exact TaskOutcome.place_ne_of_unmodelled _ rfl id heq
    have hne : r.workspace.abstractDir t.id ≠ r.workspace.taskDir id :=
      (r.workspace.taskDir_ne_abstractDir id t.id).symm
    rw [told.count_release, List.count_append, count_complete, tidy.taskDirs, outcomes,
      List.map_append, List.count_append, hplaces]
    simp [hne]
  told := by
    rw [told.filterMap_told?, tidy.told, outcomes, List.map_append, List.filterMap_append,
      List.filterMap_map, List.map_map]
    simp [Effect.told?, outcomeWithoutModel, Function.comp_def]
  recorded := by
    rw [outcomes, List.map_append]
    refine told.recorded ((tidy.recorded.mono _).append fun id hmem => ?_)
    rcases List.mem_append.1 hmem with hcomplete | hrelease
    · obtain ⟨q, _, heq⟩ := List.mem_map.1 hcomplete
      cases heq
    · have heq := Effect.release.inj (List.mem_singleton.1 hrelease)
      exact r.workspace.taskDir_ne_abstractDir id t.id heq

theorem silent (tidy : Tidy r pairs items s) {items' : Multiset WorkItem}
    (begun : ∀ i ∈ items', i.pair ∈ pairs)
    (pairs_iff : ∀ id, id ∈ items'.map WorkItem.pair ↔ id ∈ items.map WorkItem.pair)
    (counted : ∀ id, s'.openTasks.lookup id =
      if openCount id items' = 0 then none else some (openCount id items'))
    (outcomes : s'.report.outcomes = s.report.outcomes) (told : Told s s' []) :
    Tidy r pairs items' s' where
  begun := begun
  counted := counted
  abstractDirs id := by
    rw [told.count_release, tidy.abstractDirs]
    simp only [pairs_iff]
    rfl
  taskDirs id := by
    rw [told.count_release, tidy.taskDirs, outcomes]
    rfl
  told := by
    rw [told.filterMap_told?, tidy.told, outcomes]
    exact List.append_nil _
  recorded := by
    rw [outcomes]
    refine told.recorded ?_
    rw [List.append_nil]
    exact tidy.recorded

theorem fanned {t : AbstractTask} {tasks : List WorkItem}
    (tidy : Tidy r pairs (.abstractTask t ::ₘ items) s)
    (apart : KeysApart ((WorkItem.abstractTask t ::ₘ items).map WorkItem.key))
    (some : tasks ≠ []) (own : ∀ i ∈ tasks, i.origin? = .some t.id)
    (outcomes : s'.report.outcomes = s.report.outcomes)
    (openTasks : s'.openTasks =
      (s.openTasks.filter fun p => p.1 ≠ t.id) ++ [(t.id, tasks.length)])
    (told : Told s s' []) : Tidy r pairs (items + ↑tasks) s' := by
  have hpair : ∀ i ∈ tasks, i.pair = t.id := fun i hi => WorkItem.pair_of_origin (own i hi)
  refine tidy.silent (fun i hi => ?_) (fun id => ?_) (fun id => ?_) outcomes told
  · rcases Multiset.mem_add.1 hi with hold | hnew
    · exact tidy.begun i (Multiset.mem_cons_of_mem hold)
    · rw [hpair i (Multiset.mem_coe.1 hnew)]
      exact tidy.begun _ (Multiset.mem_cons_self _ _)
  · -- The tasks stand for the abstract task.
    obtain ⟨first, hfirst⟩ := List.exists_mem_of_ne_nil tasks some
    rw [Multiset.map_add, Multiset.mem_add, Multiset.map_cons, Multiset.mem_cons]
    constructor
    · rintro (hold | hnew)
      · exact .inr hold
      · obtain ⟨i, hi, rfl⟩ := Multiset.mem_map.1 hnew
        exact .inl (hpair i (Multiset.mem_coe.1 hi))
    · rintro (rfl | hold)
      · refine .inr ?_
        have hmem := Multiset.mem_map_of_mem WorkItem.pair (Multiset.mem_coe.2 hfirst)
        rw [hpair first hfirst] at hmem
        exact hmem
      · exact .inl hold
  · have hcount := tidy.counted id
    rw [openCount_cons] at hcount
    have hlength : tasks.length ≠ 0 := fun h => some (List.eq_nil_of_length_eq_zero h)
    have hnone := openCount_eq_zero (notMem_pair_of_abstract apart)
    rw [openTasks, Pairs.lookup_set _ _ _ _ (by simp), openCount_fanned own]
    by_cases hid : id = t.id
    · rw [if_pos hid, if_pos hid, hid, hnone, Nat.zero_add, if_neg hlength]
      simp
    · rw [if_neg hid, if_neg hid]
      exact hcount

theorem again {t t' : Task} (tidy : Tidy r pairs (.task t ::ₘ items) s) (same : t'.id = t.id)
    (outcomes : s'.report.outcomes = s.report.outcomes) (openTasks : s'.openTasks = s.openTasks)
    (told : Told s s' []) : Tidy r pairs (.task t' ::ₘ items) s' := by
  have hpair : (WorkItem.task t').pair = (WorkItem.task t).pair := congrArg TaskId.abstractId same
  have horigin : (WorkItem.task t').origin? = (WorkItem.task t).origin? :=
    congrArg (fun id : TaskId => some id.abstractId) same
  refine tidy.silent (fun i hi => ?_) (fun id => ?_) (fun id => ?_) outcomes told
  · rcases Multiset.mem_cons.1 hi with rfl | hold
    · rw [hpair]
      exact tidy.begun _ (Multiset.mem_cons_self _ _)
    · exact tidy.begun i (Multiset.mem_cons_of_mem hold)
  · rw [Multiset.map_cons, Multiset.map_cons, hpair]
  · rw [openTasks, tidy.counted, openCount_cons, openCount_cons, horigin]

theorem ended {t : Task} {status : FinalStatus} {attempts : Nat}
    (tidy : Tidy r pairs (.task t ::ₘ items) s)
    (apart : KeysApart ((WorkItem.task t ::ₘ items).map WorkItem.key))
    (outcomes : s'.report.outcomes = s.report.outcomes ++ [outcomeOf t status attempts])
    {left : Nat} (count : openCount t.id.abstractId items = left)
    (openTasks : s'.openTasks = (s.openTasks.filter fun p => p.1 ≠ t.id.abstractId) ++
      (if left = 0 then [] else [(t.id.abstractId, left)]))
    (told : Told s s' (farewell r.workspace t status left)) : Tidy r pairs items s' where
  begun i hi := tidy.begun i (Multiset.mem_cons_of_mem hi)
  counted id := by
    have hcount := tidy.counted id
    rw [openCount_cons] at hcount
    rw [openTasks, Pairs.lookup_set _ _ _ _ (by split <;> simp)]
    by_cases hid : id = t.id.abstractId
    · rw [if_pos hid, hid, count]
      split <;> simp
    · have hother : (WorkItem.task t).origin? ≠ some id :=
        fun h => hid (Option.some.inj h).symm
      rw [if_neg hother, Nat.add_zero] at hcount
      rw [if_neg hid]
      exact hcount
  abstractDirs id := by
    have hbegun : t.id.abstractId ∈ pairs := tidy.begun _ (Multiset.mem_cons_self _ _)
    -- The count tells when the last task has ended, as the abstract task itself is over.
    have hover : left = 0 ↔ t.id.abstractId ∉ items.map WorkItem.pair := by
      rw [← count]
      exact ⟨notMem_pair_of_task apart, openCount_eq_zero⟩
    rw [told.count_release, count_abstractDir_farewell, tidy.abstractDirs, Multiset.map_cons]
    by_cases hid : t.id.abstractId = id
    · rw [← hid]
      simp [WorkItem.pair, hbegun, hover]
    · simp [WorkItem.pair, hid, Ne.symm hid]
  taskDirs id := by
    have hplace : (outcomeOf t status attempts).place = t.id.place := rfl
    rw [told.count_release, count_taskDir_farewell, tidy.taskDirs, outcomes, List.map_append,
      List.count_append, List.map_singleton, hplace, List.count_singleton]
    simp [TaskId.place_injective.eq_iff]
  told := by
    rw [told.filterMap_told?, filterMap_farewell, tidy.told, outcomes, List.map_append]
    rfl
  recorded := by
    have hlength := congrArg List.length tidy.told
    rw [List.length_map, ← List.length_map TaskOutcome.place] at hlength
    rw [outcomes, List.map_append]
    exact told.recorded (tidy.recorded.farewell r.workspace t status left hlength)

theorem leave {item : WorkItem} (tidy : Tidy r pairs (item ::ₘ s.live) s)
    (apart : KeysApart ((item ::ₘ s.live).map WorkItem.key)) (removed : r.config.keepFiles = false)
    (leaving : Leaving r s s' item) : Tidy r pairs s'.live s' := by
  have hfreed : ∀ dir, r.freed dir = [.release dir] := fun dir => by simp [freed, removed]
  cases leaving with
  | barren live outcomes openTasks told =>
    rw [hfreed] at told
    rw [live]
    exact tidy.barren apart outcomes openTasks told
  | fanned some own live outcomes openTasks told =>
    rw [live]
    exact tidy.fanned apart some own outcomes openTasks told
  | @ended t status attempts live outcomes closed =>
    have hlookup := tidy.counted t.id.abstractId
    rw [openCount_cons, if_pos (show (WorkItem.task t).origin? = some t.id.abstractId from rfl),
      if_neg (Nat.succ_ne_zero _)] at hlookup
    obtain ⟨hopen, htold⟩ := closed _ hlookup
    rw [hfreed, hfreed] at htold
    rw [live]
    exact tidy.ended apart outcomes rfl hopen htold
  | again same live outcomes openTasks told =>
    rw [live]
    exact tidy.again same outcomes openTasks told

theorem of_quiet (tidy : Tidy r pairs items s) (quiet : Quiet s s') : Tidy r pairs items s' := by
  refine tidy.silent tidy.begun (fun _ => Iff.rfl) (fun id => ?_) quiet.outcomes quiet.told
  rw [quiet.openTasks]
  exact tidy.counted id

/-- The directory of an abstract task is not released before all of it is over. -/
theorem abstractDir_notMem (tidy : Tidy r pairs items s) {item : WorkItem} (h : item ∈ items) :
    .release (r.workspace.abstractDir item.pair) ∉ s.effects := by
  have hcount := tidy.abstractDirs item.pair
  rw [if_neg fun hover => hover.2 (Multiset.mem_map_of_mem WorkItem.pair h)] at hcount
  exact List.count_eq_zero.1 hcount

theorem openTasks_eq_nil (tidy : Tidy r pairs 0 s) : s.openTasks = [] := by
  cases h : s.openTasks with
  | nil => rfl
  | cons p rest =>
    have hnone := tidy.counted p.1
    rw [h, List.lookup_cons_self] at hnone
    cases hnone

end Tidy

theorem start_tidy (r : Run) (fragments : FragmentSet) :
    Tidy r ((r.abstractTasks fragments).map (·.id)) (r.start fragments).live
      (r.start fragments) := by
  refine Tidy.of_quiet ?_ (start_quiet r fragments)
  have hpairs : (r.start fragments).live.map WorkItem.pair =
      ↑((r.abstractTasks fragments).map (·.id)) := by
    rw [live_start, Multiset.map_coe, List.map_map]
    rfl
  refine ⟨fun i hi => ?_, fun id => ?_, fun id => ?_, fun id => rfl, rfl,
    fun before id after split => ?_⟩
  · rw [← Multiset.mem_coe, ← hpairs]
    exact Multiset.mem_map_of_mem WorkItem.pair hi
  · have hnone : openCount id (r.start fragments).live = 0 := by
      rw [openCount, live_start, Multiset.coe_countP, List.countP_eq_zero]
      intro i hi
      obtain ⟨t, _, rfl⟩ := List.mem_map.1 hi
      simp [WorkItem.origin?]
    rw [hnone]
    rfl
  · rw [hpairs]
    exact (if_neg fun h => h.2 (Multiset.mem_coe.2 h.1)).symm
  · have hnil : (r.queued fragments).effects = [] := rfl
    rw [hnil] at split
    simp at split

section
variable {r : Run} {fragments : FragmentSet} {workers : Nat} {es : List Event} {y y' : System}

theorem Step.tidy {e : Event} {pairs : List AbstractTaskId} (step : Step r y e y')
    (sound : y.Sound r) (removed : r.config.keepFiles = false)
    (known : ∀ id ∈ pairs, (Dict.find? r.classes id.classKey).isSome)
    (tidy : Tidy r pairs y.state.live y.state) : Tidy r pairs y'.state.live y'.state := by
  rcases (step.move sound).leaving_or_quiet fun t ht => known _ (tidy.begun _ ht) with
    ⟨item, s, hlive, hquiet, hleaving⟩ | ⟨hlive, hquiet⟩
  · have hapart := sound.state.apart
    rw [keys, hlive] at hapart
    rw [hlive] at tidy
    exact (tidy.of_quiet hquiet).leave hapart removed hleaving
  · rw [hlive]
    exact tidy.of_quiet hquiet

theorem Trace.tidy (wf : r.classes.WellFormed) (ordered : Dict.Ordered fragments)
    (run : Trace r fragments workers es y) (distinct : ∀ c ∈ handled es, c.DistinctModels)
    (removed : r.config.keepFiles = false) :
    Tidy r ((r.abstractTasks fragments).map (·.id)) y.state.live y.state :=
  run.keeps distinct (start_tidy r fragments) fun run before _ next tidy =>
    next.tidy (run.sound wf ordered before) removed (known_abstractTasks wf fragments) tidy

end

structure Releases (r : Run) (fragments : FragmentSet) (es : List Event) (y : System) : Prop where
  /-- The ends are told in the order in which they are recorded. -/
  told : y.state.effects.filterMap Effect.told? =
    y.state.report.outcomes.map fun o => (o.requirement, o.status)
  /-- The directory of a task goes when its outcome has been recorded, and it goes once. -/
  tasks : ∀ id, y.state.effects.count (.release (r.workspace.taskDir id)) =
    if id.place ∈ y.state.report.outcomes.map TaskOutcome.place then 1 else 0
  recorded : Recorded r.workspace y.state.effects (y.state.report.outcomes.map TaskOutcome.place)
  tasksLate : ∀ t, .task t ∈ y.state.live →
    .release (r.workspace.taskDir t.id) ∉ y.state.effects
  abstractTasks : ∀ id, y.state.effects.count (.release (r.workspace.abstractDir id)) ≤ 1
  /-- The directory of an abstract task stays while it or a task from it lives. -/
  abstractTasksLate : ∀ item ∈ y.state.live,
    .release (r.workspace.abstractDir item.pair) ∉ y.state.effects
  returned : y.phase = .returned → y.state.openTasks = [] ∧
    ∀ f ∈ fragments, ∀ p ∈ r.classes,
      y.state.effects.count (.release (r.workspace.abstractDir ⟨f.1, p.1⟩)) = 1 ∧
      ∀ m ∈ yielded ⟨f.1, p.1⟩ (handled es), ∀ q ∈ p.2.identifiers,
        y.state.effects.count (.release (r.workspace.taskDir ⟨f.1, p.1, m, q⟩)) = 1

theorem Trace.releases {r : Run} (wf : r.classes.WellFormed) {fragments : FragmentSet}
    (ordered : Dict.Ordered fragments) {workers : Nat} {es : List Event} {y : System}
    (run : Trace r fragments workers es y) (answers : Answers Completion.DistinctModels es)
    (removed : r.config.keepFiles = false) : Releases r fragments es y := by
  have hdistinct := run.distinct_handled answers
  have hacc := run.accounts wf ordered hdistinct
  have htidy := run.tidy wf ordered hdistinct removed
  have hpairs := nodup_abstractTasks wf ordered
  have hnodup : (y.state.report.outcomes.map TaskOutcome.place).Nodup :=
    Multiset.coe_nodup.1 (Multiset.nodup_add.1 (hacc.nodup_balance wf hpairs)).1
  have htasks : ∀ id, y.state.effects.count (.release (r.workspace.taskDir id)) =
      if id.place ∈ y.state.report.outcomes.map TaskOutcome.place then 1 else 0 :=
    fun id => (htidy.taskDirs id).trans hnodup.count
  refine ⟨htidy.told, htasks, htidy.recorded, fun t ht => ?_, fun id => ?_,
    fun item hitem => htidy.abstractDir_notMem hitem, fun hreturned => ?_⟩
  · rw [← List.count_eq_zero, htasks, if_neg (hacc.no_outcome wf hpairs ht)]
  · rw [htidy.abstractDirs]
    split <;> omega
  · have hcomplete := run.complete wf ordered answers hreturned
    rw [run.live_of_returned hreturned] at htidy
    refine ⟨htidy.openTasks_eq_nil, fun f hf p hp => ⟨?_, fun m hm q hq => ?_⟩⟩
    · have hpair : ⟨f.1, p.1⟩ ∈ (r.abstractTasks fragments).map (·.id) := by
        rw [map_id_abstractTasks wf]
        exact List.mem_flatMap.2 ⟨f.1, List.mem_map_of_mem hf,
          List.mem_map_of_mem (List.mem_map_of_mem hp)⟩
      rw [htidy.abstractDirs, if_pos ⟨hpair, Multiset.notMem_zero _⟩]
    · -- Every model has its outcomes in the report of a run that has returned.
      have hplace : (⟨f.1, p.1, m, q⟩ : TaskId).place ∈
          y.state.report.outcomes.map TaskOutcome.place := by
        rw [hcomplete.outcomes.mem_iff]
        refine List.mem_flatMap.2 ⟨f, hf, List.mem_flatMap.2 ⟨p, hp, ?_⟩⟩
        rw [p.2.places_of_ne_nil _ (List.ne_nil_of_mem hm)]
        exact List.mem_flatMap.2 ⟨m, hm, List.mem_map.2 ⟨q, hq, rfl⟩⟩
      rw [htasks, if_pos hplace]

/-- In every run, also in one that is cancelled, every directory is given back once and not
before nobody needs it any more.  Nothing is given back if all files are kept. -/
theorem releases_of_trace {r : Run} {digest : List ConfiguredStage → String}
    {rs : List Requirement} (classes : r.classes = RequirementClasses.classifyWith digest rs)
    (distinct : (rs.map (·.identifier)).Nodup) {fragments : FragmentSet}
    (ordered : Dict.Ordered fragments) {workers : Nat} {es : List Event} {y : System}
    (run : Trace r fragments workers es y) :
    (r.config.keepFiles = false → Answers Completion.DistinctModels es →
      Releases r fragments es y) ∧
    (r.config.keepFiles = true → ∀ dir, .release dir ∉ y.state.effects) := by
  have hwf := RequirementClasses.WellFormed.of_eq classes distinct
  exact ⟨fun hremoved answers => run.releases hwf ordered answers hremoved,
    fun hkept dir => run.spares hkept dir⟩

/-- Two models are found.  The run is cancelled while the first task is under way and the second
one waits. -/
theorem releases_of_sample :
    ∃ es y, Trace (sample 1 true) [("f", ⟨"f.json"⟩)] 1 es y ∧ y.phase = .returned ∧
      y.state.report.failed = 2 ∧ Releases (sample 1 true) [("f", ⟨"f.json"⟩)] es y := by
  let t : AbstractTask := ⟨⟨"f", "alloc"⟩, ⟨"f.json"⟩⟩
  let m : EnvModel := ⟨"m", ⟨"m"⟩, ⟨"m.json"⟩⟩
  let n : EnvModel := ⟨"n", ⟨"n"⟩, ⟨"n.json"⟩⟩
  let t₁ : Task := ⟨⟨"f", "alloc", "m", "alloc"⟩, 0, .standard, m.artifact⟩
  let t₂ : Task := ⟨⟨"f", "alloc", "n", "alloc"⟩, 0, .standard, n.artifact⟩
  have modelled := @Trace.turn (sample 1 true) [("f", ⟨"f.json"⟩)] 1 _ []
    (.abstractTask t (.ok [m, n])) _ _ .start rfl (by decide) ⟨1⟩
  have entered := modelled.step (@Step.enter _ _ (.task t₁) _ ⟨2⟩ rfl (by decide) rfl)
  have aborted := (entered.step (.cancel rfl rfl)).step (.abort rfl)
  have stranded := aborted.step
    (@Step.strand _ _ ((WorkItem.task t₁).key, ⟨.task t₁, ⟨2⟩⟩) ⟨3⟩ rfl rfl List.mem_cons_self)
  have dropped := stranded.step (@Step.drop _ _ (.task t₂) _ rfl rfl rfl rfl)
  have concluded := dropped.step
    (.conclude ⟨4⟩ rfl rfl (by decide +kernel) (by decide +kernel))
  refine ⟨_, _, concluded, rfl, by decide +kernel, ?_⟩
  have released := @releases_of_trace (sample 1 true) fingerprint _ rfl (by decide) _
    (List.pairwise_singleton _ _) _ _ _ concluded
  refine released.1 rfl fun c hc => ?_
  simp at hc
  subst hc
  have hnames : ["m", "n"].Nodup := by decide
  exact hnames

end Run
end TaskGen
