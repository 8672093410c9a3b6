import TaskGen.Proofs.Run.Accounting

/-!
What is known of the attempts at the tasks that live, and so what becomes of a task when one
of its attempts is over.  This holds in every run, also in one that is cancelled.
-/

namespace TaskGen
namespace Run

open State

variable {r : Run} {s : State}

/-! ### What is known of the attempts -/

/-- Of every task among the items the present attempt is known, and of other tasks nothing. -/
structure Governed (p : Escalation) (items : Multiset WorkItem) (g : Governor) : Prop where
  policy : g.policy = p
  known : ∀ t, .task t ∈ items →
    ∃ history, g.record? t.id = some ⟨t.attempt, t.limits, history, none⟩
  unknown : ∀ id, .task id ∉ items.map WorkItem.key → g.record? id = none

namespace Governed

variable {p : Escalation} {items : Multiset WorkItem} {g g' : Governor} {t : Task}

theorem of_abstract {a : AbstractTask} (h : Governed p (.abstractTask a ::ₘ items) g) :
    Governed p items g where
  policy := h.policy
  known t ht := h.known t (Multiset.mem_cons_of_mem ht)
  unknown id hid := by
    refine h.unknown id (fun hmem => ?_)
    rw [Multiset.map_cons, Multiset.mem_cons] at hmem
    rcases hmem with heq | hrest
    · cases heq
    · exact hid hrest

theorem id_ne_of_mem (nodup : ((WorkItem.task t ::ₘ items).map WorkItem.key).Nodup) {t' : Task}
    (h : .task t' ∈ items) : t'.id ≠ t.id := by
  rw [Multiset.map_cons, Multiset.nodup_cons] at nodup
  intro heq
  refine nodup.1 ?_
  have hkey : (WorkItem.task t).key = (WorkItem.task t').key := congrArg ItemKey.task heq.symm
  rw [hkey]
  exact Multiset.mem_map_of_mem WorkItem.key h

theorem notMem_cons {id : TaskId} (hid : id ≠ t.id)
    (h : .task id ∉ items.map WorkItem.key) :
    .task id ∉ (WorkItem.task t ::ₘ items).map WorkItem.key := by
  rw [Multiset.map_cons, Multiset.mem_cons]
  rintro (heq | hrest)
  · exact hid (ItemKey.task.inj heq)
  · exact h hrest

theorem ended (h : Governed p (.task t ::ₘ items) g)
    (nodup : ((WorkItem.task t ::ₘ items).map WorkItem.key).Nodup)
    (elsewhere : Governor.Elsewhere t.id g g') : Governed p items (g'.forget t.id) where
  policy := elsewhere.policy.trans h.policy
  known t' ht' := by
    have hne := id_ne_of_mem nodup ht'
    rw [g'.record?_forget_of_ne t.id hne, elsewhere.record? _ hne]
    exact h.known t' (Multiset.mem_cons_of_mem ht')
  unknown id hid := by
    by_cases hne : id = t.id
    · rw [hne]
      exact g'.record?_forget_self t.id
    · rw [g'.record?_forget_of_ne t.id hne, elsewhere.record? _ hne]
      exact h.unknown id (notMem_cons hne hid)

theorem retried (h : Governed p (.task t ::ₘ items) g)
    (nodup : ((WorkItem.task t ::ₘ items).map WorkItem.key).Nodup)
    (elsewhere : Governor.Elsewhere t.id g g') {t' : Task} (same : t'.id = t.id)
    {history : List Status}
    (record : g'.record? t.id = some ⟨t'.attempt, t'.limits, history, none⟩) :
    Governed p (.task t' ::ₘ items) g' where
  policy := elsewhere.policy.trans h.policy
  known t'' ht'' := by
    rcases Multiset.mem_cons.1 ht'' with heq | hrest
    · cases heq
      rw [same]
      exact ⟨history, record⟩
    · rw [elsewhere.record? _ (id_ne_of_mem nodup hrest)]
      exact h.known t'' (Multiset.mem_cons_of_mem hrest)
  unknown id hid := by
    have hne : id ≠ t.id := by
      intro heq
      refine hid ?_
      rw [Multiset.map_cons, Multiset.mem_cons, heq, ← same]
      exact .inl rfl
    rw [elsewhere.record? _ hne]
    refine h.unknown id (notMem_cons hne (fun hmem => hid ?_))
    rw [Multiset.map_cons]
    exact Multiset.mem_cons_of_mem hmem

/-- Nothing is known of the tasks of an abstract task before it is dealt with. -/
theorem recordOf_of_abstract {a : AbstractTask}
    (h : Governed p (.abstractTask a ::ₘ items) g)
    (apart : KeysApart ((WorkItem.abstractTask a ::ₘ items).map WorkItem.key)) {id : TaskId}
    (hid : id.abstractId = a.id) : g.recordOf id = ⟨0, p.defaults, [], none⟩ := by
  have hunknown : g.record? id = none := by
    refine h.unknown id (fun hmem => apart.ahead id hmem ?_)
    rw [hid, Multiset.map_cons]
    exact Multiset.mem_cons_self _ _
  rw [g.recordOf_of_none id hunknown, h.policy]

theorem fanned {a : AbstractTask} (h : Governed p (.abstractTask a ::ₘ items) g)
    (apart : KeysApart ((WorkItem.abstractTask a ::ₘ items).map WorkItem.key))
    {tasks : List (TaskId × Path)} (own : ∀ i ∈ tasks.map Prod.fst, i.abstractId = a.id) :
    Governed p (items + ↑(tasks.map (firstAttempt g))) (openRecords (tasks.map Prod.fst) g) where
  policy := (policy_openRecords _ g).trans h.policy
  known t ht := by
    rcases Multiset.mem_add.1 ht with hold | hnew
    · have hmem : WorkItem.task t ∈ WorkItem.abstractTask a ::ₘ items :=
        Multiset.mem_cons_of_mem hold
      have hnot : t.id ∉ tasks.map Prod.fst := by
        intro hid
        refine apart.ahead t.id (Multiset.mem_map_of_mem WorkItem.key hmem) ?_
        rw [own t.id hid, Multiset.map_cons]
        exact Multiset.mem_cons_self _ _
      rw [record?_openRecords_of_notMem hnot]
      exact h.known t hmem
    · obtain ⟨task, htask, heq⟩ := List.mem_map.1 (Multiset.mem_coe.1 hnew)
      cases heq
      have hid : task.1 ∈ tasks.map Prod.fst := List.mem_map_of_mem htask
      refine ⟨[], ?_⟩
      rw [record?_openRecords_of_mem hid, h.recordOf_of_abstract apart (own _ hid)]
  unknown id hid := by
    rw [Multiset.map_add, Multiset.mem_add] at hid
    have hnot : id ∉ tasks.map Prod.fst := by
      intro hmem
      refine hid (.inr ?_)
      rw [Multiset.map_coe, map_key_firstAttempt]
      exact Multiset.mem_coe.2 (List.mem_map_of_mem hmem)
    rw [record?_openRecords_of_notMem hnot]
    exact h.of_abstract.unknown id (fun hmem => hid (.inl hmem))

end Governed

/-! ### One completion -/

/-- What becomes of an item whose completion is dealt with: what waits in its place and what
the report says of it. -/
inductive Turn (p : Escalation) (s s' : State) : Completion → Prop where
  | barren {t : AbstractTask} {models : Except String (List EnvModel)} {new : List TaskOutcome}
      (waits : s'.unadmitted = s.unadmitted)
      (told : s'.report.outcomes = s.report.outcomes ++ new)
      (unmodelled : ∀ o ∈ new, o.model = none) : Turn p s s' (.abstractTask t models)
  | fanned {t : AbstractTask} {models : Except String (List EnvModel)}
      {tasks : List (TaskId × Path)} (own : ∀ i ∈ tasks, i.1.abstractId = t.id)
      (waits : s'.unadmitted =
        s.unadmitted + ↑(tasks.map fun i => WorkItem.task ⟨i.1, 0, p.defaults, i.2⟩))
      (told : s'.report.outcomes = s.report.outcomes) : Turn p s s' (.abstractTask t models)
  | ended {t : Task} {solution : Solution} {status : FinalStatus}
      (waits : s'.unadmitted = s.unadmitted)
      (told : s'.report.outcomes =
        s.report.outcomes ++ [outcomeOf t status (t.attempt + 1)]) :
      Turn p s s' (.task t solution)
  | again {t : Task} {solution : Solution} {next : Limits}
      (more : p.further? t.attempt t.limits solution.status = some next)
      (waits : s'.unadmitted =
        .task { t with attempt := t.attempt + 1, limits := next } ::ₘ s.unadmitted)
      (told : s'.report.outcomes = s.report.outcomes) : Turn p s s' (.task t solution)

theorem unadmitted_queueRetry (r : Run) (item : WorkItem) (s : State) :
    (r.queueRetry item s).unadmitted = item ::ₘ s.unadmitted := by
  unfold queueRetry
  split
  · simp only [unadmitted, ← Multiset.coe_add, ← Multiset.coe_singleton,
      ← Multiset.singleton_add]
    abel
  · simp only [unadmitted, ← Multiset.cons_coe, Multiset.cons_add]

theorem unadmitted_withTasks (s : State) (id : AbstractTaskId) (c : RequirementClass)
    (models : List EnvModel) :
    (s.withTasks id c models).unadmitted =
      s.unadmitted + ↑((constructed id c models).map (firstAttempt s.governor)) := by
  have hbacklog : (s.withTasks id c models).backlog =
      s.backlog ++ (constructed id c models).map (firstAttempt s.governor) := rfl
  have hretries : (s.withTasks id c models).retries = s.retries := rfl
  rw [unadmitted, unadmitted, hbacklog, hretries, ← Multiset.coe_add]
  abel

namespace Governed

variable {p : Escalation} {items : Multiset WorkItem} {g g' : Governor} {t : Task}

theorem of_aside {s' : State} (h : Governed p s.live s.governor) (aside : Aside s s') :
    Governed p s'.live s'.governor := by
  rw [aside.live_eq, aside.governor_eq]
  exact h

/-- The first attempts are made with the limits of the configuration. -/
theorem map_firstAttempt {a : AbstractTask} (h : Governed p (.abstractTask a ::ₘ items) g)
    (apart : KeysApart ((WorkItem.abstractTask a ::ₘ items).map WorkItem.key))
    {tasks : List (TaskId × Path)} (own : ∀ i ∈ tasks, i.1.abstractId = a.id) :
    tasks.map (firstAttempt g) =
      tasks.map fun i => WorkItem.task ⟨i.1, 0, p.defaults, i.2⟩ := by
  refine List.map_congr_left fun i hi => ?_
  rw [firstAttempt, h.recordOf_of_abstract apart (own i hi)]

theorem onAbstract {a : AbstractTask} (h : Governed p (.abstractTask a ::ₘ s.live) s.governor)
    (apart : KeysApart ((WorkItem.abstractTask a ::ₘ s.live).map WorkItem.key))
    (models : Except String (List EnvModel)) :
    Governed p (r.onAbstract a models s).live (r.onAbstract a models s).governor ∧
      Turn p s (r.onAbstract a models s) (.abstractTask a models) := by
  cases hclass : Dict.find? r.classes a.id.classKey with
  | none =>
    rw [Run.onAbstract, hclass]
    have htold : s.report.outcomes = s.report.outcomes ++ [] := (List.append_nil _).symm
    exact ⟨h.of_abstract, .barren rfl htold fun o ho => absurd ho List.not_mem_nil⟩
  | some c =>
    by_cases hmodels : modelsOf models = []
    · have haside := onAbstract_aside_of_nil r a s hclass hmodels
      have hfailed : Governed p (s.withFailedClass a.id c).live
          (s.withFailedClass a.id c).governor := h.of_abstract
      refine ⟨hfailed.of_aside haside,
        .barren haside.unadmitted_eq haside.outcomes_eq fun o ho => ?_⟩
      obtain ⟨q, _, rfl⟩ := List.mem_map.1 ho
      rfl
    · have haside := onAbstract_aside_of_ne_nil r a s hclass hmodels
      have hown : ∀ i ∈ constructed a.id c (modelsOf models), i.1.abstractId = a.id :=
        fun i hi => abstractId_of_mem_constructed (List.mem_map_of_mem hi)
      have hfanned : Governed p (s.withTasks a.id c (modelsOf models)).live
          (s.withTasks a.id c (modelsOf models)).governor := by
        rw [live_withTasks]
        exact h.fanned apart fun i hi => abstractId_of_mem_constructed hi
      refine ⟨hfanned.of_aside haside, .fanned hown ?_ haside.outcomes_eq⟩
      rw [haside.unadmitted_eq, unadmitted_withTasks, h.map_firstAttempt apart hown]

/-- A task that ends leaves nothing behind, whatever the governor says of it. -/
theorem finishTask (h : Governed p (.task t ::ₘ s.live) s.governor)
    (nodup : ((WorkItem.task t ::ₘ s.live).map WorkItem.key).Nodup) {governor : Governor}
    (elsewhere : Governor.Elsewhere t.id s.governor governor) (status : FinalStatus)
    (attempts : Nat) :
    Governed p (r.finishTask t status attempts { s with governor }).live
      (r.finishTask t status attempts { s with governor }).governor := by
  have hended : Governed p (State.withOutcome { s with governor } t status attempts).live
      (State.withOutcome { s with governor } t status attempts).governor :=
    h.ended nodup elsewhere
  exact hended.of_aside (finishTask_aside r t status attempts _)

theorem onTask (h : Governed p (.task t ::ₘ s.live) s.governor)
    (nodup : ((WorkItem.task t ::ₘ s.live).map WorkItem.key).Nodup) (solution : Solution) :
    Governed p (r.onTask t solution s).live (r.onTask t solution s).governor ∧
      Turn p s (r.onTask t solution s) (.task t solution) := by
  -- The attempt that came back is the one that the governor knows of.
  obtain ⟨history, hknown⟩ := h.known t (Multiset.mem_cons_self _ _)
  rcases onTask_of_known r solution hknown with
    ⟨status, governor, helsewhere, heq⟩ | ⟨next, governor, history', hmore, helsewhere, hrecord, heq⟩
  · have haside := finishTask_aside r t status (t.attempt + 1) { s with governor }
    rw [heq]
    have htold : (r.finishTask t status (t.attempt + 1) { s with governor }).report.outcomes =
        s.report.outcomes ++ [outcomeOf t status (t.attempt + 1)] :=
      haside.outcomes_eq.trans (s.report.outcomes_record _)
    exact ⟨h.finishTask nodup helsewhere status _, .ended haside.unadmitted_eq htold⟩
  · rw [h.policy] at hmore
    rw [heq]
    refine ⟨?_, .again hmore ?_ ?_⟩
    · rw [live_queueRetry, governor_queueRetry]
      exact h.retried nodup helsewhere rfl hrecord
    · rw [unadmitted_queueRetry]
      rfl
    · rw [report_queueRetry]
      rfl

theorem deal {c : Completion} (h : Governed p (c.item ::ₘ s.live) s.governor)
    (apart : KeysApart ((c.item ::ₘ s.live).map WorkItem.key)) :
    Governed p (r.deal c s).live (r.deal c s).governor ∧ Turn p s (r.deal c s) c := by
  cases c with
  | abstractTask t models => exact h.onAbstract apart models
  | task t solution => exact h.onTask apart.nodup solution

theorem onCompletion {c : Completion} (h : Governed p s.live s.governor) (sound : s.Sound)
    (hmem : c.item ∈ s.underWay) (now : Duration) :
    Governed p (r.onCompletion now c s).live (r.onCompletion now c s).governor ∧
      Turn p s (r.onCompletion now c s) c := by
  obtain ⟨metrics, heq⟩ := onCompletion_eq_deal r now sound hmem
  have hlive := sound.live_eq hmem
  have hapart := sound.apart
  rw [keys, hlive] at hapart
  rw [hlive] at h
  have hdue : Governed p (c.item ::ₘ ((s.without c.key).withMetrics metrics).live)
      ((s.without c.key).withMetrics metrics).governor := h
  obtain ⟨hgoverned, hturn⟩ := @Governed.deal r _ p c hdue hapart
  rw [heq]
  refine ⟨hgoverned, ?_⟩
  cases hturn with
  | barren waits told unmodelled => exact .barren waits told unmodelled
  | fanned own waits told => exact .fanned own waits told
  | ended waits told => exact .ended waits told
  | again more waits told => exact .again more waits told

theorem dropItem {item : WorkItem} (h : Governed p (item ::ₘ s.live) s.governor)
    (apart : KeysApart ((item ::ₘ s.live).map WorkItem.key)) :
    Governed p (r.dropItem item s).live (r.dropItem item s).governor := by
  cases item with
  | abstractTask t => exact (h.onAbstract apart _).1
  | task t => exact h.finishTask apart.nodup ⟨rfl, fun _ _ => rfl⟩ .failed t.attempt

theorem of_move {completion : Option Completion} (h : Governed p s.live s.governor)
    (apart : KeysApart s.keys) (move : Move r s completion s') :
    Governed p s'.live s'.governor := by
  cases move with
  | deal shift live =>
    rw [keys, live] at apart
    rw [live, ← shift.governor_eq] at h
    exact (h.deal apart).1
  | drop shift live =>
    rw [keys, live] at apart
    rw [live, ← shift.governor_eq] at h
    exact h.dropItem apart
  | finish now idle =>
    obtain ⟨_, _, _, _, heq⟩ := finish_eq now s
    rw [heq]
    exact h
  | shift shift live =>
    rw [live, shift.governor_eq]
    exact h

end Governed

theorem dropItem_told (r : Run) (item : WorkItem) (s : State) :
    (r.dropItem item s).unadmitted = s.unadmitted ∧
      ∀ o ∈ (r.dropItem item s).report.outcomes, o ∈ s.report.outcomes ∨ o.model = none ∨
        ∃ t, item = .task t ∧ o = outcomeOf t .failed t.attempt := by
  cases item with
  | abstractTask t =>
    cases hclass : Dict.find? r.classes t.id.classKey with
    | none =>
      rw [dropItem, onAbstract, hclass]
      exact ⟨rfl, fun o ho => .inl ho⟩
    | some c =>
      have haside : Aside (s.withFailedClass t.id c)
          (r.onAbstract t (.error "cancelled before admission") s) :=
        onAbstract_aside_of_nil r t s hclass rfl
      rw [dropItem]
      refine ⟨haside.unadmitted_eq, fun o ho => ?_⟩
      rw [haside.outcomes_eq] at ho
      rcases List.mem_append.1 ho with hold | hnew
      · exact .inl hold
      · obtain ⟨q, _, rfl⟩ := List.mem_map.1 hnew
        exact .inr (.inl rfl)
  | task t =>
    have haside : Aside (s.withOutcome t .failed t.attempt) (r.dropItem (.task t) s) :=
      finishTask_aside r t .failed t.attempt s
    refine ⟨haside.unadmitted_eq, fun o ho => ?_⟩
    rw [haside.outcomes_eq] at ho
    rcases List.mem_append.1 ((s.report.outcomes_record _) ▸ ho) with hold | hnew
    · exact .inl hold
    · exact .inr (.inr ⟨t, rfl, List.mem_singleton.1 hnew⟩)

/-! ### A whole run -/

theorem start_governed (r : Run) (fragments : FragmentSet) :
    Governed r.config.escalation (r.start fragments).live (r.start fragments).governor where
  policy := by
    rw [(start_aside r fragments).governor_eq]
    rfl
  known t ht := by
    rw [live_start] at ht
    obtain ⟨t', _, heq⟩ := List.mem_map.1 (Multiset.mem_coe.1 ht)
    cases heq
  unknown id _ := by
    rw [(start_aside r fragments).governor_eq]
    rfl

section
variable {p : Escalation} {fragments : FragmentSet} {workers : Nat} {es : List Event}
  {y : System}

theorem Trace.governed (wf : r.classes.WellFormed) (ordered : Dict.Ordered fragments)
    (run : Trace r fragments workers es y) (distinct : ∀ c ∈ handled es, c.DistinctModels) :
    Governed r.config.escalation y.state.live y.state.governor := by
  refine run.keeps (P := fun _ y => Governed r.config.escalation y.state.live y.state.governor)
    distinct (start_governed r fragments) fun run before _ next governed => ?_
  have hsound := run.sound wf ordered before
  exact governed.of_move hsound.state.apart (next.move hsound)

end

end Run
end TaskGen
