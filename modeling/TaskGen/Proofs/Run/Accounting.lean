import TaskGen.Proofs.Run.Places

/-!
Every requirement of every fragment ends exactly once.  At any time the outcomes so far and
those that are still owed for the items that live make up what the report has in the end.
-/

namespace TaskGen

/-- An outcome with a model tells how the last attempt ended.  Without a model there was no
attempt. -/
def TaskOutcome.Settled (cs : List Completion) (o : TaskOutcome) : Prop :=
  match o.model with
  | none => o.status = .failed ∧ o.attempts = 0
  | some m => o.status = .finished ↔
      Run.lastStatus? ⟨o.fragment, o.classKey, m, o.requirement⟩ cs = some .finished

def Report.Counted (rep : Report) : Prop :=
  rep.finished = rep.outcomes.countP (·.status = .finished) ∧
    rep.failed = rep.outcomes.countP (·.status = .failed)

theorem Report.Counted.record {rep : Report} (h : rep.Counted) (o : TaskOutcome) :
    (rep.record o).Counted := by
  obtain ⟨hfinished, hfailed⟩ := h
  unfold Report.record Counted
  cases hstatus : o.status with
  | finished =>
    simp only [List.countP_append, List.countP_singleton, hstatus]
    exact ⟨by simp [hfinished], by simp [hfailed]⟩
  | failed =>
    simp only [List.countP_append, List.countP_singleton, hstatus]
    exact ⟨by simp [hfinished], by simp [hfailed]⟩

theorem Report.outcomes_record (rep : Report) (o : TaskOutcome) :
    (rep.record o).outcomes = rep.outcomes ++ [o] := by
  unfold Report.record
  split <;> rfl

namespace Run

open State

variable {r : Run} {c : Completion}

/-! ### One completion -/

/-- What a completion adds to the live items and to the outcomes. -/
structure Books (r : Run) (c : Completion) (s s' : State) (successors : Multiset WorkItem)
    (new : List TaskOutcome) : Prop where
  live : s'.live = s.live + successors
  outcomes : s'.report.outcomes = s.report.outcomes ++ new
  counted : s.report.Counted → s'.report.Counted
  owed : (↑(new.map TaskOutcome.place) : Multiset Place) + r.debts successors =
    ↑(r.owedAfter c)
  closed : ∀ cs, ∀ o ∈ new, o.Settled (cs ++ [c])
  opened : ∀ i ∈ successors, ∃ t, i = .task t ∧ t.id.abstractId = c.pair ∧
    ∀ cs, (∀ a, c.item = .abstractTask a → ∀ c' ∈ cs, c'.pair ≠ a.id) →
      lastStatus? t.id (cs ++ [c]) ≠ some .finished

theorem State.Aside.counted {s s' : State} (h : Aside s s') (counted : s.report.Counted) :
    s'.report.Counted := by
  obtain ⟨total, heq⟩ := h.report_eq
  rw [heq]
  exact counted

theorem State.Aside.outcomes_eq {s s' : State} (h : Aside s s') :
    s'.report.outcomes = s.report.outcomes := by
  obtain ⟨total, heq⟩ := h.report_eq
  rw [heq]

theorem Shift.outcomes_eq {s s' : State} (shift : Shift s s') :
    s'.report.outcomes = s.report.outcomes := by
  obtain ⟨_, _, _, _, _, _, _, rfl⟩ := shift
  rfl

theorem Shift.counted {s s' : State} (shift : Shift s s') (counted : s.report.Counted) :
    s'.report.Counted := by
  obtain ⟨_, _, _, _, _, _, _, rfl⟩ := shift
  exact counted

/-- What is left aside is in no book. -/
theorem Books.of_aside {s s' s'' : State} {successors : Multiset WorkItem}
    {new : List TaskOutcome} (h : Books r c s s' successors new) (aside : Aside s' s'') :
    Books r c s s'' successors new where
  live := aside.live_eq.trans h.live
  outcomes := aside.outcomes_eq.trans h.outcomes
  counted := fun hcounted => aside.counted (h.counted hcounted)
  owed := h.owed
  closed := h.closed
  opened := h.opened

theorem counted_withFailedClass {s : State} (id : AbstractTaskId) (cls : RequirementClass)
    (h : s.report.Counted) : (s.withFailedClass id cls).report.Counted := by
  have hfailed : (cls.identifiers.map (outcomeWithoutModel id)).countP (·.status = .failed) =
      cls.size := by
    rw [← size_eq_length_identifiers, List.countP_map]
    exact List.countP_eq_length.2 fun q _ => by simp [outcomeWithoutModel]
  have hfinished : (cls.identifiers.map (outcomeWithoutModel id)).countP
      (·.status = .finished) = 0 := by
    rw [List.countP_map]
    exact List.countP_eq_zero.2 fun q _ => by simp [outcomeWithoutModel]
  refine ⟨?_, ?_⟩
  · rw [withFailedClass, List.countP_append, hfinished, Nat.add_zero]
    exact h.1
  · rw [withFailedClass, List.countP_append, hfailed, h.2]

theorem books_withFailedClass {t : AbstractTask} {cls : RequirementClass}
    (hclass : Dict.find? r.classes t.id.classKey = some cls)
    {models : Except String (List EnvModel)} (hmodels : modelsOf models = []) (s : State) :
    Books r (.abstractTask t models) s (s.withFailedClass t.id cls) 0
      (cls.identifiers.map (outcomeWithoutModel t.id)) where
  live := (add_zero _).symm
  outcomes := rfl
  counted := counted_withFailedClass t.id cls
  owed := by
    rw [debts_zero, add_zero, owedAfter, hmodels, entries, hclass, List.map_map]
    rfl
  closed cs o ho := by
    obtain ⟨q, _, rfl⟩ := List.mem_map.1 ho
    exact ⟨rfl, rfl⟩
  opened i hi := absurd hi (Multiset.notMem_zero i)

theorem owed_firstAttempt (r : Run) (g : Governor) (tasks : List (TaskId × Path)) :
    (tasks.map (firstAttempt g)).flatMap r.owed = (tasks.map Prod.fst).map TaskId.place := by
  rw [List.flatMap_map, List.map_map, List.map_eq_flatMap]
  rfl

theorem books_withTasks {t : AbstractTask} {cls : RequirementClass}
    (hclass : Dict.find? r.classes t.id.classKey = some cls)
    {models : Except String (List EnvModel)} (hmodels : modelsOf models ≠ []) (s : State) :
    Books r (.abstractTask t models) s (s.withTasks t.id cls (modelsOf models))
      ↑((constructed t.id cls (modelsOf models)).map (firstAttempt s.governor)) [] where
  live := live_withTasks s t.id cls _
  outcomes := (List.append_nil _).symm
  counted h := h
  owed := by
    have hne : (modelsOf models).map (·.id) ≠ [] := by simpa using hmodels
    have hentries : r.entries t.id ((modelsOf models).map (·.id)) =
        cls.places t.id ((modelsOf models).map (·.id)) := by rw [entries, hclass]
    rw [debts_coe, owed_firstAttempt, map_fst_constructed, owedAfter, hentries,
      cls.places_of_ne_nil t.id hne, List.map_flatMap, List.map_nil, Multiset.coe_nil, zero_add]
    simp only [List.map_map]
    rfl
  closed cs o ho := absurd ho List.not_mem_nil
  opened i hi := by
    obtain ⟨task, htask, rfl⟩ := List.mem_map.1 (Multiset.mem_coe.1 hi)
    have hpair : task.1.abstractId = t.id :=
      abstractId_of_mem_constructed (List.mem_map_of_mem htask)
    refine ⟨_, rfl, hpair, fun cs hcs => ?_⟩
    have hnone : lastStatus? task.1 cs = none := by
      refine lastStatus?_eq_none (fun c' hc' => ?_)
      rw [hpair]
      exact hcs t rfl c' hc'
    rw [lastStatus?_append_of_ne (fun h => ItemKey.noConfusion h), hnone]
    exact (Option.some_ne_none _).symm

theorem books_withOutcome (t : Task) {solution : Solution} {status : FinalStatus}
    (hstatus : status = .finished ↔ solution.status = .finished) (attempts : Nat) (s : State)
    (governor : Governor) :
    Books r (.task t solution) s (State.withOutcome { s with governor } t status attempts) 0
      [outcomeOf t status attempts] where
  live := (add_zero _).symm
  outcomes := s.report.outcomes_record _
  counted h := h.record _
  owed := by
    rw [debts_zero, add_zero]
    rfl
  closed cs o ho := by
    rw [List.mem_singleton.1 ho]
    have hlast := lastStatus?_append_self t solution cs
    exact hstatus.trans (by rw [← Option.some_inj, ← hlast]; rfl)
  opened i hi := absurd hi (Multiset.notMem_zero i)

theorem books_retry (t : Task) {solution : Solution} (hstatus : solution.status ≠ .finished)
    (attempt : Nat) (limits : Limits) (governor : Governor) {s s' : State}
    (h : s' = r.queueRetry (.task { t with attempt, limits }) (s.withRetry governor)) :
    Books r (.task t solution) s s' {.task { t with attempt, limits }} [] where
  live := by
    rw [h, live_queueRetry, add_comm s.live, Multiset.singleton_add]
    rfl
  outcomes := by
    rw [h, report_queueRetry, List.append_nil]
    rfl
  counted hcounted := by
    rw [h, report_queueRetry]
    exact hcounted
  owed := by
    rw [← Multiset.cons_zero, debts_cons, debts_zero]
    rfl
  closed cs o ho := absurd ho List.not_mem_nil
  opened i hi := by
    refine ⟨_, Multiset.mem_singleton.1 hi, rfl, fun cs _ => ?_⟩
    have hlast := lastStatus?_append_self t solution cs
    rw [hlast]
    exact fun heq => hstatus (Option.some.inj heq)

theorem deal_books (s : State) (known : ∀ t, c.item = .abstractTask t →
      (Dict.find? r.classes t.id.classKey).isSome) :
    ∃ successors new, Books r c s (r.deal c s) successors new := by
  cases c with
  | abstractTask t models =>
    obtain ⟨cls, hclass⟩ := Option.isSome_iff_exists.1 (known t rfl)
    by_cases hmodels : modelsOf models = []
    · exact ⟨_, _, (books_withFailedClass hclass hmodels s).of_aside
        (onAbstract_aside_of_nil r t s hclass hmodels)⟩
    · exact ⟨_, _, (books_withTasks hclass hmodels s).of_aside
        (onAbstract_aside_of_ne_nil r t s hclass hmodels)⟩
  | task t solution =>
    rcases onTask_cases r t solution s with
      ⟨status, governor, hstatus, haside⟩ | ⟨attempt, limits, governor, hstatus, heq⟩
    · exact ⟨_, _, (books_withOutcome t hstatus _ s governor).of_aside haside⟩
    · exact ⟨_, _, books_retry t hstatus attempt limits governor heq⟩

theorem dropItem_books (item : WorkItem) (s : State) (known : ∀ t, item = .abstractTask t →
      (Dict.find? r.classes t.id.classKey).isSome) :
    ∃ new, (r.dropItem item s).report.outcomes = s.report.outcomes ++ new ∧
      (s.report.Counted → (r.dropItem item s).report.Counted) ∧
      new.map TaskOutcome.place = r.owed item ∧
      ∀ cs, (∀ t, item = .task t → lastStatus? t.id cs ≠ some .finished) →
        ∀ o ∈ new, o.Settled cs := by
  cases item with
  | abstractTask t =>
    obtain ⟨cls, hclass⟩ := Option.isSome_iff_exists.1 (known t rfl)
    have haside : Aside (s.withFailedClass t.id cls)
        (r.onAbstract t (.error "cancelled before admission") s) :=
      onAbstract_aside_of_nil r t s hclass rfl
    refine ⟨_, haside.outcomes_eq,
      fun hcounted => haside.counted (counted_withFailedClass t.id cls hcounted), ?_, ?_⟩
    · rw [owed, entries, hclass, List.map_map]
      rfl
    · intro cs _ o ho
      obtain ⟨q, _, rfl⟩ := List.mem_map.1 ho
      exact ⟨rfl, rfl⟩
  | task t =>
    have haside := finishTask_aside r t .failed t.attempt s
    refine ⟨_, haside.outcomes_eq.trans (s.report.outcomes_record _),
      fun hcounted => haside.counted (hcounted.record _), rfl, ?_⟩
    intro cs hopen o ho
    rw [List.mem_singleton.1 ho]
    exact ⟨fun h => FinalStatus.noConfusion h, fun h => absurd h (hopen t rfl)⟩

/-! ### The balance -/

structure Accounts (r : Run) (pairs : List AbstractTaskId) (cs : List Completion)
    (s : State) : Prop where
  balance : (↑(s.report.outcomes.map TaskOutcome.place) : Multiset Place) + r.debts s.live =
    ↑(r.expected pairs cs)
  counted : s.report.Counted
  settled : ∀ o ∈ s.report.outcomes, o.Settled cs
  /-- The abstract tasks that live are among those of the beginning, and nothing has come of
  them so far. -/
  begun : ∀ t, .abstractTask t ∈ s.live → t.id ∈ pairs
  untouched : ∀ t, .abstractTask t ∈ s.live → ∀ c ∈ cs, c.pair ≠ t.id
  unfinished : ∀ t, .task t ∈ s.live → lastStatus? t.id cs ≠ some .finished
  models : ∀ id, (yielded id cs).Nodup

namespace Accounts

variable {pairs : List AbstractTaskId} {cs : List Completion} {s s' : State}

theorem of_eq (acc : Accounts r pairs cs s) (live : s'.live = s.live)
    (outcomes : s'.report.outcomes = s.report.outcomes)
    (finished : s'.report.finished = s.report.finished)
    (failed : s'.report.failed = s.report.failed) : Accounts r pairs cs s' where
  balance := by
    rw [live, outcomes]
    exact acc.balance
  counted := by
    unfold Report.Counted
    rw [outcomes, finished, failed]
    exact acc.counted
  settled := by
    rw [outcomes]
    exact acc.settled
  begun := by
    rw [live]
    exact acc.begun
  untouched := by
    rw [live]
    exact acc.untouched
  unfinished := by
    rw [live]
    exact acc.unfinished
  models := acc.models

/-- No place is taken twice, and none is both taken and owed. -/
theorem nodup_balance (acc : Accounts r pairs cs s) (wf : r.classes.WellFormed)
    (distinct : pairs.Nodup) :
    ((↑(s.report.outcomes.map TaskOutcome.place) : Multiset Place) + r.debts s.live).Nodup := by
  rw [acc.balance, Multiset.coe_nodup]
  exact nodup_expected wf distinct acc.models

theorem no_outcome (acc : Accounts r pairs cs s) (wf : r.classes.WellFormed)
    (distinct : pairs.Nodup) {t : Task} (h : .task t ∈ s.live) :
    t.id.place ∉ s.report.outcomes.map TaskOutcome.place := by
  have hnodup := Multiset.nodup_add.1 (acc.nodup_balance wf distinct)
  have hdebt : t.id.place ∈ r.debts s.live :=
    Multiset.mem_bind.2 ⟨_, h, Multiset.mem_coe.2 (List.mem_singleton.2 rfl)⟩
  intro hmem
  exact Multiset.disjoint_left.1 hnodup.2.2 (Multiset.mem_coe.2 hmem) hdebt

/-- Nothing that comes of one item changes how the last attempt at another task ended. -/
theorem settled_append (acc : Accounts r pairs cs s) (wf : r.classes.WellFormed)
    (distinct : pairs.Nodup) (hmem : c.item ∈ s.live) {o : TaskOutcome}
    (ho : o ∈ s.report.outcomes) : o.Settled (cs ++ [c]) := by
  have hsettled := acc.settled o ho
  unfold TaskOutcome.Settled at hsettled ⊢
  cases hmodel : o.model with
  | none =>
    rw [hmodel] at hsettled
    exact hsettled
  | some m =>
    rw [hmodel] at hsettled
    dsimp only at hsettled ⊢
    rw [lastStatus?_append_of_ne]
    · exact hsettled
    · intro hkey
      cases c with
      | abstractTask t models => cases hkey
      | task t solution =>
        -- Then the task has an outcome while it lives.
        have hid : t.id = ⟨o.fragment, o.classKey, m, o.requirement⟩ := ItemKey.task.inj hkey
        have hplace : o.place = t.id.place := by
          rw [hid, TaskOutcome.place, hmodel]
          rfl
        refine acc.no_outcome wf distinct hmem ?_
        rw [← hplace]
        exact List.mem_map_of_mem ho

end Accounts

/-- An abstract task that lives on is not the one that a completion is about. -/
theorem pair_ne_of_apart {ks : Multiset ItemKey} (apart : KeysApart (c.key ::ₘ ks))
    {a : AbstractTaskId} (h : .abstractTask a ∈ ks) : c.pair ≠ a := by
  intro heq
  subst heq
  cases c with
  | abstractTask t models => exact (Multiset.nodup_cons.1 apart.nodup).1 h
  | task t solution =>
    exact apart.ahead t.id (Multiset.mem_cons_self _ _) (Multiset.mem_cons_of_mem h)

theorem nodup_yielded_append {cs : List Completion} (models : ∀ id, (yielded id cs).Nodup)
    (distinct : c.DistinctModels)
    (fresh : ∀ t, c.item = .abstractTask t → yielded t.id cs = []) (id : AbstractTaskId) :
    (yielded id (cs ++ [c])).Nodup := by
  rw [yielded_append]
  cases c with
  | abstractTask t ms =>
    by_cases hid : t.id = id
    · subst hid
      have hnew : Completion.modelsFor t.id (.abstractTask t ms) = (modelsOf ms).map (·.id) :=
        if_pos rfl
      rw [fresh t rfl, hnew, List.nil_append]
      exact distinct
    · have hnone : Completion.modelsFor id (.abstractTask t ms) = [] := if_neg hid
      rw [hnone, List.append_nil]
      exact models id
  | task t solution =>
    have hnone : Completion.modelsFor id (.task t solution) = [] := rfl
    rw [hnone, List.append_nil]
    exact models id

namespace Accounts

variable {pairs : List AbstractTaskId} {cs : List Completion} {s s' : State}

section
variable {rest : State} (acc : Accounts r pairs cs s) (apart : KeysApart s.keys)
  (live : s.live = c.item ::ₘ rest.live)
include acc apart live

theorem untouched_append {t : AbstractTask} (ht : .abstractTask t ∈ rest.live) :
    ∀ c' ∈ cs ++ [c], c'.pair ≠ t.id := by
  rw [keys_eq_cons live] at apart
  intro c' hc'
  rcases List.mem_append.1 hc' with hbefore | hlast
  · refine acc.untouched t ?_ c' hbefore
    rw [live]
    exact Multiset.mem_cons_of_mem ht
  · rw [List.mem_singleton.1 hlast]
    exact pair_ne_of_apart apart (Multiset.mem_map_of_mem WorkItem.key ht)

theorem unfinished_append {t : Task} (ht : .task t ∈ rest.live) :
    lastStatus? t.id (cs ++ [c]) ≠ some .finished := by
  rw [keys_eq_cons live] at apart
  rw [lastStatus?_append_of_ne]
  · refine acc.unfinished t ?_
    rw [live]
    exact Multiset.mem_cons_of_mem ht
  · intro hkey
    have hin : ItemKey.task t.id ∈ rest.keys := Multiset.mem_map_of_mem WorkItem.key ht
    rw [← hkey] at hin
    exact (Multiset.nodup_cons.1 apart.nodup).1 hin

end

theorem deal {rest : State} (acc : Accounts r pairs cs s) (apart : KeysApart s.keys)
    (shift : Shift s rest) (live : s.live = c.item ::ₘ rest.live) (wf : r.classes.WellFormed)
    (pairsDistinct : pairs.Nodup)
    (known : ∀ id ∈ pairs, (Dict.find? r.classes id.classKey).isSome)
    (distinct : c.DistinctModels) : Accounts r pairs (cs ++ [c]) (r.deal c rest) := by
  have hmem : c.item ∈ s.live := by
    rw [live]
    exact Multiset.mem_cons_self _ _
  have hfresh : ∀ t, c.item = .abstractTask t → ∀ c' ∈ cs, c'.pair ≠ t.id :=
    fun t ht => acc.untouched t (ht ▸ hmem)
  have hbegun : ∀ t, c.item = .abstractTask t → t.id ∈ pairs ∧ yielded t.id cs = [] :=
    fun t ht => ⟨acc.begun t (ht ▸ hmem), yielded_eq_nil (hfresh t ht)⟩
  obtain ⟨successors, new, books⟩ := @deal_books r c rest fun t ht => known _ (hbegun t ht).1
  have houtcomes : (r.deal c rest).report.outcomes = s.report.outcomes ++ new := by
    rw [books.outcomes, shift.outcomes_eq]
  have hkeep : ∀ item ∈ rest.live, item ∈ s.live := by
    intro item hitem
    rw [live]
    exact Multiset.mem_cons_of_mem hitem
  -- What comes in place of the item are tasks, so the abstract tasks that live were there.
  have habstract : ∀ t, .abstractTask t ∈ (r.deal c rest).live → .abstractTask t ∈ rest.live := by
    intro t ht
    rw [books.live] at ht
    rcases Multiset.mem_add.1 ht with hold | hnew
    · exact hold
    · obtain ⟨t', ht', _⟩ := books.opened _ hnew
      cases ht'
  refine ⟨?_, books.counted (shift.counted acc.counted), fun o ho => ?_, fun t ht => ?_,
    fun t ht c' hc' => ?_, fun t ht => ?_, ?_⟩
  · -- Both sides of the balance give up what the item was owed for what takes over.
    have hbalance := acc.balance
    have hexpected := @expected_append cs c r pairs pairsDistinct hbegun
    rw [live, debts_cons] at hbalance
    rw [houtcomes, books.live, List.map_append, ← Multiset.coe_add, debts_add]
    refine add_right_cancel (b := (↑(r.owed c.item) : Multiset Place)) ?_
    rw [hexpected, ← hbalance, ← books.owed]
    abel
  · rw [houtcomes] at ho
    rcases List.mem_append.1 ho with hold | hnew
    · exact acc.settled_append wf pairsDistinct hmem hold
    · exact books.closed cs o hnew
  · exact acc.begun t (hkeep _ (habstract t ht))
  · exact acc.untouched_append apart live (habstract t ht) c' hc'
  · rw [books.live] at ht
    rcases Multiset.mem_add.1 ht with hold | hnew
    · exact acc.unfinished_append apart live hold
    · obtain ⟨t', ht', _, hopen⟩ := books.opened _ hnew
      cases ht'
      exact hopen cs hfresh
  · exact nodup_yielded_append acc.models distinct fun t ht => (hbegun t ht).2

theorem dropItem {item : WorkItem} {rest : State} (acc : Accounts r pairs cs s)
    (shift : Shift s rest) (live : s.live = item ::ₘ rest.live)
    (known : ∀ id ∈ pairs, (Dict.find? r.classes id.classKey).isSome) :
    Accounts r pairs cs (r.dropItem item rest) := by
  have hmem : item ∈ s.live := by
    rw [live]
    exact Multiset.mem_cons_self _ _
  obtain ⟨new, houtcomes, hcounted, howed, hsettled⟩ := @dropItem_books r item rest
    fun t ht => known _ (acc.begun t (ht ▸ hmem))
  rw [shift.outcomes_eq] at houtcomes
  have hlive := (dropItem_live r item rest).1
  have hkeep : ∀ i ∈ (r.dropItem item rest).live, i ∈ s.live := by
    intro i hi
    rw [hlive] at hi
    rw [live]
    exact Multiset.mem_cons_of_mem hi
  refine ⟨?_, hcounted (shift.counted acc.counted), fun o ho => ?_,
    fun t ht => acc.begun t (hkeep _ ht), fun t ht => acc.untouched t (hkeep _ ht),
    fun t ht => acc.unfinished t (hkeep _ ht), acc.models⟩
  · rw [← acc.balance, houtcomes, hlive, live, List.map_append, ← Multiset.coe_add, howed,
      debts_cons]
    abel
  · rw [houtcomes] at ho
    rcases List.mem_append.1 ho with hold | hnew
    · exact acc.settled o hold
    · exact hsettled cs (fun t ht => acc.unfinished t (ht ▸ hmem)) o hnew

theorem of_move {completion : Option Completion} (acc : Accounts r pairs cs s)
    (apart : KeysApart s.keys) (wf : r.classes.WellFormed) (pairsDistinct : pairs.Nodup)
    (known : ∀ id ∈ pairs, (Dict.find? r.classes id.classKey).isSome)
    (distinct : ∀ c ∈ completion, c.DistinctModels) (move : Move r s completion s') :
    Accounts r pairs (cs ++ completion.toList) s' := by
  cases move with
  | deal shift live =>
    exact acc.deal apart shift live wf pairsDistinct known (distinct _ rfl)
  | drop shift live =>
    rw [Option.toList_none, List.append_nil]
    exact acc.dropItem shift live known
  | finish now idle =>
    obtain ⟨_, _, _, _, heq⟩ := finish_eq now s
    rw [Option.toList_none, List.append_nil, heq]
    exact acc.of_eq rfl rfl rfl rfl
  | shift shift live =>
    obtain ⟨_, _, _, _, _, _, _, rfl⟩ := shift
    rw [Option.toList_none, List.append_nil]
    exact acc.of_eq live rfl rfl rfl

end Accounts

/-! ### A whole run -/

theorem known_abstractTasks (wf : r.classes.WellFormed) (fragments : FragmentSet) :
    ∀ id ∈ (r.abstractTasks fragments).map (·.id),
      (Dict.find? r.classes id.classKey).isSome := by
  intro id hid
  rw [map_id_abstractTasks wf] at hid
  obtain ⟨f, _, hf⟩ := List.mem_flatMap.1 hid
  obtain ⟨k, hk, rfl⟩ := List.mem_map.1 hf
  obtain ⟨p, hp, rfl⟩ := List.mem_map.1 hk
  rw [Dict.find?_of_mem wf.ordered.nodup_keys hp]
  rfl

theorem start_accounts (r : Run) (fragments : FragmentSet) :
    Accounts r ((r.abstractTasks fragments).map (·.id)) [] (r.start fragments) := by
  have haside := start_aside r fragments
  have houtcomes : (r.start fragments).report.outcomes = [] := haside.outcomes_eq
  have hcounted : (r.queued fragments).report.Counted := ⟨rfl, rfl⟩
  have hlive := live_start r fragments
  refine ⟨?_, haside.counted hcounted, ?_, fun t ht => ?_, fun t ht => ?_, fun t ht => ?_,
    fun id => List.nodup_nil⟩
  · rw [houtcomes, hlive, debts_coe, expected, List.flatMap_map, List.flatMap_map, List.map_nil,
      Multiset.coe_nil, zero_add]
    rfl
  · rw [houtcomes]
    exact fun o ho => absurd ho List.not_mem_nil
  · rw [hlive] at ht
    obtain ⟨t', ht', heq⟩ := List.mem_map.1 (Multiset.mem_coe.1 ht)
    cases heq
    exact List.mem_map_of_mem ht'
  · exact fun c hc => absurd hc List.not_mem_nil
  · exact (Option.some_ne_none _).symm

section
variable {fragments : FragmentSet} {workers : Nat} {es : List Event} {y y' : System}

theorem Trace.accounts (wf : r.classes.WellFormed) (ordered : Dict.Ordered fragments)
    (run : Trace r fragments workers es y) (distinct : ∀ c ∈ handled es, c.DistinctModels) :
    Accounts r ((r.abstractTasks fragments).map (·.id)) (handled es) y.state := by
  refine run.keeps (P := fun es y =>
    Accounts r ((r.abstractTasks fragments).map (·.id)) (handled es) y.state) distinct
    (start_accounts r fragments) fun run before last next acc => ?_
  have hsound := run.sound wf ordered before
  rw [handled_append]
  exact acc.of_move hsound.state.apart wf (nodup_abstractTasks wf ordered)
    (known_abstractTasks wf fragments) last (next.move hsound)

end

/-- What a report says about every fragment and every class, and nothing else. -/
structure Complete (r : Run) (fragments : FragmentSet) (cs : List Completion)
    (report : Report) : Prop where
  /-- There is an outcome for every model and every member, or for every member if there is no
  model. -/
  outcomes : (report.outcomes.map TaskOutcome.place).Perm
    (fragments.flatMap fun f => r.classes.flatMap fun p =>
      p.2.places ⟨f.1, p.1⟩ (yielded ⟨f.1, p.1⟩ cs))
  nodup : (report.outcomes.map TaskOutcome.place).Nodup
  unattempted : ∀ o ∈ report.outcomes, o.model = none → o.status = .failed ∧ o.attempts = 0
  /-- A requirement holds on a model exactly if the last attempt found that. -/
  attempted : ∀ o ∈ report.outcomes, ∀ m, o.model = some m →
    (o.status = .finished ↔
      lastStatus? ⟨o.fragment, o.classKey, m, o.requirement⟩ cs = some .finished)
  finished : report.finished = report.outcomes.countP (·.status = .finished)
  failed : report.failed = report.outcomes.countP (·.status = .failed)

theorem expected_abstractTasks (wf : r.classes.WellFormed) (fragments : FragmentSet)
    (cs : List Completion) :
    r.expected ((r.abstractTasks fragments).map (·.id)) cs =
      fragments.flatMap fun f => r.classes.flatMap fun p =>
        p.2.places ⟨f.1, p.1⟩ (yielded ⟨f.1, p.1⟩ cs) := by
  have hfragments : Dict.keys fragments = fragments.map Prod.fst := rfl
  have hclasses : Dict.keys r.classes = r.classes.map Prod.fst := rfl
  rw [expected, map_id_abstractTasks wf, List.flatMap_assoc, hfragments, List.flatMap_map]
  refine List.flatMap_congr (fun f _ => ?_)
  rw [hclasses, List.map_map, List.flatMap_map]
  refine List.flatMap_congr (fun p hp => ?_)
  dsimp only [Function.comp]
  rw [entries, Dict.find?_of_mem wf.ordered.nodup_keys hp]

theorem Trace.complete (wf : r.classes.WellFormed) {fragments : FragmentSet}
    (ordered : Dict.Ordered fragments) {workers : Nat} {es : List Event} {y : System}
    (run : Trace r fragments workers es y) (answers : Answers Completion.DistinctModels es)
    (returned : y.phase = .returned) : Complete r fragments (handled es) y.state.report := by
  have acc := run.accounts wf ordered (run.distinct_handled answers)
  have hbalance := acc.balance
  rw [run.live_of_returned returned, debts_zero, add_zero, Multiset.coe_eq_coe] at hbalance
  refine ⟨?_, ?_, fun o ho hmodel => ?_, fun o ho m hmodel => ?_, acc.counted.1, acc.counted.2⟩
  · rw [← expected_abstractTasks wf]
    exact hbalance
  · exact hbalance.nodup_iff.2
      (nodup_expected wf (nodup_abstractTasks wf ordered) acc.models)
  · have hsettled := acc.settled o ho
    rw [TaskOutcome.Settled, hmodel] at hsettled
    exact hsettled
  · have hsettled := acc.settled o ho
    rw [TaskOutcome.Settled, hmodel] at hsettled
    exact hsettled

/-- Whatever happens on the way, a run that returns has told the end of every requirement
exactly once. -/
theorem complete_of_returned {digest : List ConfiguredStage → String} {rs : List Requirement}
    (classes : r.classes = RequirementClasses.classifyWith digest rs)
    (distinct : (rs.map (·.identifier)).Nodup) {fragments : FragmentSet}
    (ordered : Dict.Ordered fragments) {workers : Nat} {es : List Event} {y : System}
    (run : Trace r fragments workers es y) (answers : Answers Completion.DistinctModels es)
    (returned : y.phase = .returned) : Complete r fragments (handled es) y.state.report := by
  have hwf := RequirementClasses.WellFormed.of_eq classes distinct
  exact run.complete hwf ordered answers returned

theorem complete_of_sample :
    ∃ es y, Trace (sample 1 true) [("f", ⟨"f.json"⟩)] 1 es y ∧ y.phase = .returned ∧
      y.state.report.finished = 1 ∧
      Complete (sample 1 true) [("f", ⟨"f.json"⟩)] (handled es) y.state.report := by
  let t : AbstractTask := ⟨⟨"f", "alloc"⟩, ⟨"f.json"⟩⟩
  let m : EnvModel := ⟨"m", ⟨"m"⟩, ⟨"m.json"⟩⟩
  let t' : Task := ⟨⟨"f", "alloc", "m", "alloc"⟩, 0, .standard, m.artifact⟩
  have modelled := @Trace.turn (sample 1 true) [("f", ⟨"f.json"⟩)] 1 _ []
    (.abstractTask t (.ok [m])) _ _ .start rfl (by decide) ⟨1⟩
  have solved := @Trace.turn _ _ _ _ _ (.task t' .finished) _ _ modelled rfl (by decide) ⟨2⟩
  have finished := solved.step (.finish ⟨3⟩ rfl rfl rfl)
  refine ⟨_, _, finished, rfl, rfl, ?_⟩
  refine @complete_of_returned _ fingerprint _ rfl (by decide) _ ?_ _ _ _ finished ?_ rfl
  · exact List.pairwise_singleton _ _
  · intro c hc
    simp at hc
    rcases hc with rfl | rfl
    · exact List.nodup_singleton _
    · exact trivial

end Run
end TaskGen
