import TaskGen.Proofs.Run.Records

/-!
The attempts at a task over a whole run.  They are numbered, each one is made only after the
one before it ran out of something, and none has lower limits than the one before it or passes
the ceiling.  When the task has ended the report says how many there were.

Main statement: `discipline_of_trace`.
-/

namespace TaskGen

/-! ### One task -/

/-- A course of attempts, each with the status that it came back with, and the attempt that is
due after them. -/
inductive Course (p : Escalation) : List (Task × Status) → Nat → Limits → Prop where
  | first : Course p [] 0 p.defaults
  | next {tried : List (Task × Status)} {t : Task} {status : Status} {limits : Limits}
      (before : Course p tried t.attempt t.limits)
      (more : p.further? t.attempt t.limits status = some limits) :
      Course p (tried ++ [(t, status)]) (t.attempt + 1) limits

namespace Course

variable {p : Escalation} {tried : List (Task × Status)} {attempt : Nat} {limits : Limits}

theorem length_eq (h : Course p tried attempt limits) : tried.length = attempt := by
  induction h with
  | first => rfl
  | next before more ih => rw [List.length_append, List.length_singleton, ih]

theorem attempts_eq (h : Course p tried attempt limits) :
    tried.map (fun e => e.1.attempt) = List.range attempt := by
  induction h with
  | first => rfl
  | next before more ih => rw [List.map_append, ih, List.range_succ, List.map_singleton]

theorem attempt_lt (h : Course p tried attempt limits) (positive : 0 < p.maxAttempts) :
    attempt < p.maxAttempts := by
  cases h with
  | first => exact positive
  | next before more => exact p.lt_of_further? more

theorem exhausted (h : Course p tried attempt limits) :
    ∀ e ∈ tried, e.2.isExhausted = true := by
  induction h with
  | first => exact fun e he => absurd he List.not_mem_nil
  | next before more ih =>
    intro e he
    rcases List.mem_append.1 he with hold | hlast
    · exact ih e hold
    · obtain ⟨resource, hstatus, _⟩ := p.exhausted_of_further? more
      rw [List.mem_singleton.1 hlast, hstatus]
      rfl

theorem dominates (h : Course p tried attempt limits) :
    ∀ e ∈ tried, limits.dominates e.1.limits = true := by
  induction h with
  | first => exact fun e he => absurd he List.not_mem_nil
  | @next tried t status limits before more ih =>
    intro e he
    obtain ⟨resource, _, rfl⟩ := p.exhausted_of_further? more
    have hgrown := p.escalate_dominates t.limits resource
    rcases List.mem_append.1 he with hold | hlast
    · exact Limits.dominates_trans hgrown (ih e hold)
    · rw [List.mem_singleton.1 hlast]
      exact hgrown

theorem pairwise (h : Course p tried attempt limits) :
    tried.Pairwise fun a b => b.1.limits.dominates a.1.limits = true := by
  induction h with
  | first => exact .nil
  | next before more ih =>
    refine List.pairwise_append.2 ⟨ih, List.pairwise_singleton _ _, fun a ha b hb => ?_⟩
    rw [List.mem_singleton.1 hb]
    exact before.dominates a ha

theorem below_ceiling (h : Course p tried attempt limits)
    (accepted : p.ceiling.dominates p.defaults = true) :
    p.ceiling.dominates limits = true ∧
      ∀ e ∈ tried, p.ceiling.dominates e.1.limits = true := by
  induction h with
  | first => exact ⟨accepted, fun e he => absurd he List.not_mem_nil⟩
  | next before more ih =>
    obtain ⟨resource, _, rfl⟩ := p.exhausted_of_further? more
    refine ⟨Escalation.ceiling_dominates_escalate ih.1 resource, fun e he => ?_⟩
    rcases List.mem_append.1 he with hold | hlast
    · exact ih.2 e hold
    · rw [List.mem_singleton.1 hlast]
      exact ih.1

theorem first_limits (h : Course p tried attempt limits) :
    (attempt = 0 → limits = p.defaults) ∧
      ∀ e ∈ tried, e.1.attempt = 0 → e.1.limits = p.defaults := by
  induction h with
  | first => exact ⟨fun _ => rfl, fun e he => absurd he List.not_mem_nil⟩
  | next before more ih =>
    refine ⟨fun h => absurd h (Nat.succ_ne_zero _), fun e he => ?_⟩
    rcases List.mem_append.1 he with hold | hlast
    · exact ih.2 e hold
    · rw [List.mem_singleton.1 hlast]
      exact ih.1

end Course

structure Paced (p : Escalation) (tries : List Task) : Prop where
  numbered : tries.map (·.attempt) = List.range tries.length
  bounded : tries.length ≤ p.maxAttempts
  first : ∀ t ∈ tries, t.attempt = 0 → t.limits = p.defaults
  growing : tries.Pairwise fun a b => b.limits.dominates a.limits = true
  ceiling : ∀ t ∈ tries, p.ceiling.dominates t.limits = true

theorem paced_nil (p : Escalation) : Paced p [] where
  numbered := rfl
  bounded := Nat.zero_le _
  first _ ht := absurd ht List.not_mem_nil
  growing := .nil
  ceiling _ ht := absurd ht List.not_mem_nil

theorem Course.paced {p : Escalation} {tried : List (Task × Status)} {t : Task}
    (h : Course p tried t.attempt t.limits) (positive : 0 < p.maxAttempts)
    (accepted : p.ceiling.dominates p.defaults = true) :
    Paced p (tried.map Prod.fst ++ [t]) := by
  have hlength := h.length_eq
  have hlt := h.attempt_lt positive
  obtain ⟨hceiling, hceilings⟩ := h.below_ceiling accepted
  obtain ⟨hfirst, hfirsts⟩ := h.first_limits
  have hcount : (tried.map Prod.fst ++ [t]).length = t.attempt + 1 := by
    rw [List.length_append, List.length_map, hlength, List.length_singleton]
  refine ⟨?_, by omega, fun a ha => ?_, ?_, fun a ha => ?_⟩
  · rw [hcount, List.range_succ, ← h.attempts_eq, List.map_append, List.map_map]
    rfl
  · rcases List.mem_append.1 ha with hold | hlast
    · obtain ⟨e, he, rfl⟩ := List.mem_map.1 hold
      exact hfirsts e he
    · rw [List.mem_singleton.1 hlast]
      exact hfirst
  · refine List.pairwise_append.2 ⟨?_, List.pairwise_singleton _ _, fun a ha b hb => ?_⟩
    · exact List.pairwise_map.2 h.pairwise
    · obtain ⟨e, he, rfl⟩ := List.mem_map.1 ha
      rw [List.mem_singleton.1 hb]
      exact h.dominates e he
  · rcases List.mem_append.1 ha with hold | hlast
    · obtain ⟨e, he, rfl⟩ := List.mem_map.1 hold
      exact hceilings e he
    · rw [List.mem_singleton.1 hlast]
      exact hceiling

def WorkItem.attemptAt? (id : TaskId) : WorkItem → Option Task
  | .abstractTask _ => none
  | .task t => if t.id = id then some t else none

def Completion.endAt? (id : TaskId) : Completion → Option (Task × Status)
  | .abstractTask _ _ => none
  | .task t solution => if t.id = id then some (t, solution.status) else none

namespace Run

open State

/-! ### The history of a task -/

def Event.entries : Event → List (ItemKey × InFlight)
  | .enter item now => [(item.key, ⟨item, now⟩)]
  | _ => []

def admissions (id : TaskId) (es : List Event) : List Task :=
  (es.flatMap Event.entries).filterMap fun p => p.2.item.attemptAt? id

def ends (id : TaskId) (es : List Event) : List (Task × Status) :=
  (handled es).filterMap (Completion.endAt? id)

variable {es : List Event} {e : Event} {id : TaskId}

theorem admissions_append (id : TaskId) (es : List Event) (e : Event) :
    admissions id (es ++ [e]) =
      admissions id es ++ e.entries.filterMap fun p => p.2.item.attemptAt? id := by
  rw [admissions, List.flatMap_append, List.filterMap_append, List.flatMap_singleton, admissions]

theorem ends_append (id : TaskId) (es : List Event) (e : Event) :
    ends id (es ++ [e]) = ends id es ++ e.completion?.toList.filterMap (Completion.endAt? id) := by
  rw [ends, handled_append, List.filterMap_append, ends]

theorem admissions_of_entries (h : e.entries = []) :
    admissions id (es ++ [e]) = admissions id es := by
  rw [admissions_append, h, List.filterMap_nil, List.append_nil]

theorem admissions_enter {item : WorkItem} {now : Duration} (h : item.attemptAt? id = none) :
    admissions id (es ++ [.enter item now]) = admissions id es := by
  have hnone : (Event.enter item now).entries.filterMap (fun p => p.2.item.attemptAt? id) = [] := by
    simp [Event.entries, h]
  rw [admissions_append, hnone, List.append_nil]

theorem admissions_enter_self (t : Task) (now : Duration) :
    admissions t.id (es ++ [.enter (.task t) now]) = admissions t.id es ++ [t] := by
  have hself : (Event.enter (.task t) now).entries.filterMap
      (fun p => p.2.item.attemptAt? t.id) = [t] := by
    simp [Event.entries, WorkItem.attemptAt?]
  rw [admissions_append, hself]

theorem ends_of_none (h : e.completion? = none) : ends id (es ++ [e]) = ends id es := by
  rw [ends_append, h, Option.toList_none, List.filterMap_nil, List.append_nil]

theorem ends_of_other {c : Completion} (h : e.completion? = some c)
    (other : c.item.attemptAt? id = none) : ends id (es ++ [e]) = ends id es := by
  have hnone : c.endAt? id = none := by
    cases c with
    | abstractTask t models => rfl
    | task t solution =>
      by_cases hid : t.id = id
      · have hsome : (WorkItem.task t).attemptAt? id = some t := if_pos hid
        rw [Completion.item, hsome] at other
        cases other
      · exact if_neg hid
  rw [ends_append, h, Option.toList_some, List.filterMap_cons_none hnone, List.filterMap_nil,
    List.append_nil]

theorem ends_of_self {t : Task} {solution : Solution}
    (h : e.completion? = some (.task t solution)) :
    ends t.id (es ++ [e]) = ends t.id es ++ [(t, solution.status)] := by
  have hself : (Completion.task t solution).endAt? t.id = some (t, solution.status) := if_pos rfl
  rw [ends_append, h, Option.toList_some, List.filterMap_cons_some hself, List.filterMap_nil]

theorem Event.entries_of_completion {c : Completion} (h : e.completion? = some c) :
    e.entries = [] := by
  cases e with
  | enter item now => cases h
  | _ => rfl

/-- No two items are attempts at one task. -/
theorem attemptAt?_eq_none {item : WorkItem} {items : Multiset WorkItem}
    (nodup : ((item ::ₘ items).map WorkItem.key).Nodup) {t : Task} (h : .task t ∈ items) :
    item.attemptAt? t.id = none := by
  cases item with
  | abstractTask a => rfl
  | task t' => exact if_neg fun heq => Governed.id_ne_of_mem nodup h heq.symm

/-- No item is an attempt at a task of an abstract task that is still to come. -/
theorem attemptAt?_eq_none_of_abstract {items : Multiset WorkItem}
    (apart : KeysApart (items.map WorkItem.key)) {item : WorkItem} (hitem : item ∈ items)
    {a : AbstractTask} (ha : .abstractTask a ∈ items) (hid : id.abstractId = a.id) :
    item.attemptAt? id = none := by
  cases item with
  | abstractTask a => rfl
  | task t =>
    refine if_neg fun heq => apart.ahead t.id (Multiset.mem_map_of_mem WorkItem.key hitem) ?_
    rw [heq, hid]
    exact Multiset.mem_map_of_mem WorkItem.key ha

/-! ### One step -/

/-- What the history says of every task that lives, and of those that have ended. -/
structure Log (p : Escalation) (es : List Event) (s : State) : Prop where
  waiting : ∀ t, .task t ∈ s.unadmitted → Course p (ends t.id es) t.attempt t.limits ∧
    admissions t.id es = (ends t.id es).map Prod.fst
  underWay : ∀ t, .task t ∈ s.underWay → Course p (ends t.id es) t.attempt t.limits ∧
    admissions t.id es = (ends t.id es).map Prod.fst ++ [t]
  untouched : ∀ a, .abstractTask a ∈ s.live → ∀ id, id.abstractId = a.id →
    admissions id es = [] ∧ ends id es = []
  told : ∀ o ∈ s.report.outcomes, ∀ id, o.place = id.place →
    o.attempts = (admissions id es).length
  paced : ∀ id, Paced p (admissions id es)

namespace Log

variable {p : Escalation} {s s' : State}

/-- An event that admits nothing and brings nothing back, though some of what waits may be
given up. -/
theorem keep (log : Log p es s) (entries : e.entries = []) (silent : e.completion? = none)
    (unadmitted : s'.unadmitted ≤ s.unadmitted) (underWay : s'.underWay = s.underWay)
    (outcomes : ∀ o ∈ s'.report.outcomes, o ∈ s.report.outcomes ∨ o.model = none ∨
      ∃ t, .task t ∈ s.unadmitted ∧ o.place = t.id.place ∧ o.attempts = t.attempt) :
    Log p (es ++ [e]) s' := by
  have hends : ∀ id, ends id (es ++ [e]) = ends id es := fun id => ends_of_none silent
  have hadmissions : ∀ id, admissions id (es ++ [e]) = admissions id es :=
    fun id => admissions_of_entries entries
  refine ⟨fun t ht => ?_, fun t ht => ?_, fun a ha id hid => ?_, fun o ho id hplace => ?_,
    fun id => ?_⟩
  · rw [hadmissions, hends]
    exact log.waiting t (Multiset.mem_of_le unadmitted ht)
  · rw [underWay] at ht
    rw [hadmissions, hends]
    exact log.underWay t ht
  · rw [live, underWay] at ha
    rw [hadmissions, hends]
    exact log.untouched a (Multiset.mem_of_le (add_le_add unadmitted (le_refl _)) ha) id hid
  · rw [hadmissions]
    rcases outcomes o ho with hold | hmodel | ⟨t, ht, htold, hattempts⟩
    · exact log.told o hold id hplace
    · exact absurd hplace (o.place_ne_of_unmodelled hmodel id)
    · obtain ⟨hcourse, hentered⟩ := log.waiting t ht
      have hid : id = t.id := TaskId.place_injective (hplace.symm.trans htold)
      rw [hid, hentered, List.length_map, hcourse.length_eq, hattempts]
  · rw [hadmissions]
    exact log.paced id

/-- The attempt that is due is admitted. -/
theorem enter (log : Log p es s) (sound : s.Sound) {item : WorkItem} {rest : State}
    (next : s.next? = some (item, rest)) (now : Duration) (positive : 0 < p.maxAttempts)
    (accepted : p.ceiling.dominates p.defaults = true)
    (silent : ∀ t, item = .task t → t.id.place ∉ s.report.outcomes.map TaskOutcome.place) :
    Log p (es ++ [.enter item now]) (rest.enter item now) := by
  obtain ⟨hunadmitted, backlog, retries, hrest⟩ := unadmitted_of_next? next
  obtain ⟨_, hinFlight, hlive⟩ := enter_sound sound next now
  have hends : ∀ id, ends id (es ++ [.enter item now]) = ends id es :=
    fun id => ends_of_none rfl
  have hitem : item ∈ s.unadmitted := by
    rw [hunadmitted]
    exact Multiset.mem_cons_self _ _
  -- Whatever else lives is an attempt at another task.
  have hnodup : ((item ::ₘ (rest.unadmitted + s.underWay)).map WorkItem.key).Nodup := by
    have h := sound.apart.nodup
    rw [keys, live, hunadmitted, Multiset.cons_add] at h
    exact h
  have hunderWay : (rest.enter item now).underWay = s.underWay + {item} := by
    rw [State.underWay, hinFlight, List.map_append, ← Multiset.coe_add]
    rfl
  have houtcomes : (rest.enter item now).report.outcomes = s.report.outcomes := by
    rw [hrest]
    rfl
  refine ⟨fun t ht => ?_, fun t ht => ?_, fun a ha id hid => ?_, fun o ho id hplace => ?_,
    fun id => ?_⟩
  · have hwaits : .task t ∈ rest.unadmitted := ht
    rw [hends, admissions_enter (attemptAt?_eq_none hnodup (Multiset.mem_add.2 (.inl hwaits)))]
    refine log.waiting t ?_
    rw [hunadmitted]
    exact Multiset.mem_cons_of_mem hwaits
  · rw [hunderWay] at ht
    rw [hends]
    rcases Multiset.mem_add.1 ht with hold | hnew
    · rw [admissions_enter (attemptAt?_eq_none hnodup (Multiset.mem_add.2 (.inr hold)))]
      exact log.underWay t hold
    · have heq : .task t = item := Multiset.mem_singleton.1 hnew
      rw [← heq] at hitem ⊢
      obtain ⟨hcourse, hadmissions⟩ := log.waiting t hitem
      rw [admissions_enter_self, hadmissions]
      exact ⟨hcourse, rfl⟩
  · rw [hlive] at ha
    have hmem : item ∈ s.live := Multiset.mem_add.2 (.inl hitem)
    rw [hends, admissions_enter (attemptAt?_eq_none_of_abstract sound.apart hmem ha hid)]
    exact log.untouched a ha id hid
  · rw [houtcomes] at ho
    have hother : item.attemptAt? id = none := by
      cases item with
      | abstractTask a => rfl
      | task t =>
        refine if_neg fun heq => silent t rfl ?_
        rw [heq, ← hplace]
        exact List.mem_map_of_mem ho
    rw [admissions_enter hother]
    exact log.told o ho id hplace
  · cases item with
    | abstractTask a =>
      have hother : (WorkItem.abstractTask a).attemptAt? id = none := rfl
      rw [admissions_enter hother]
      exact log.paced id
    | task t =>
      by_cases hid : t.id = id
      · subst hid
        obtain ⟨hcourse, hadmissions⟩ := log.waiting t hitem
        rw [admissions_enter_self, hadmissions]
        exact hcourse.paced positive accepted
      · have hother : (WorkItem.task t).attemptAt? id = none := if_neg hid
        rw [admissions_enter hother]
        exact log.paced id

theorem ends_of_stays (sound : s.Sound) {c : Completion}
    (left : s.underWay = c.item ::ₘ s'.underWay) (completion : e.completion? = some c) {t : Task}
    (h : .task t ∈ s.unadmitted + s'.underWay) : ends t.id (es ++ [e]) = ends t.id es := by
  have hnodup := sound.apart.nodup
  rw [keys, live, left, Multiset.add_cons] at hnodup
  exact ends_of_other completion (attemptAt?_eq_none hnodup h)

/-- The attempt that came back was the last one to be admitted. -/
theorem admissions_of_task (log : Log p es s) {t : Task} {solution : Solution}
    (left : s.underWay = .task t ::ₘ s'.underWay)
    (completion : e.completion? = some (.task t solution)) :
    Course p (ends t.id es) t.attempt t.limits ∧
      admissions t.id (es ++ [e]) = (ends t.id es).map Prod.fst ++ [t] := by
  rw [admissions_of_entries (Event.entries_of_completion completion)]
  refine log.underWay t ?_
  rw [left]
  exact Multiset.mem_cons_self _ _

section
variable (log : Log p es s) (sound : s.Sound) {c : Completion}
  (left : s.underWay = c.item ::ₘ s'.underWay) (completion : e.completion? = some c)
include log sound left completion

theorem waiting_of_stays {t : Task} (h : .task t ∈ s.unadmitted) :
    Course p (ends t.id (es ++ [e])) t.attempt t.limits ∧
      admissions t.id (es ++ [e]) = (ends t.id (es ++ [e])).map Prod.fst := by
  rw [admissions_of_entries (Event.entries_of_completion completion),
    ends_of_stays sound left completion (Multiset.mem_add.2 (.inl h))]
  exact log.waiting t h

theorem underWay_of_stays {t : Task} (h : .task t ∈ s'.underWay) :
    Course p (ends t.id (es ++ [e])) t.attempt t.limits ∧
      admissions t.id (es ++ [e]) = (ends t.id (es ++ [e])).map Prod.fst ++ [t] := by
  rw [admissions_of_entries (Event.entries_of_completion completion),
    ends_of_stays sound left completion (Multiset.mem_add.2 (.inr h))]
  refine log.underWay t ?_
  rw [left]
  exact Multiset.mem_cons_of_mem h

theorem untouched_of_stays {a : AbstractTask} (h : .abstractTask a ∈ s.unadmitted + s'.underWay)
    {id : TaskId} (hid : id.abstractId = a.id) :
    admissions id (es ++ [e]) = [] ∧ ends id (es ++ [e]) = [] := by
  have hlive : s.live = c.item ::ₘ (s.unadmitted + s'.underWay) := by
    rw [live, left, Multiset.add_cons]
  have hitem : c.item ∈ s.live := by
    rw [hlive]
    exact Multiset.mem_cons_self _ _
  have ha : .abstractTask a ∈ s.live := by
    rw [hlive]
    exact Multiset.mem_cons_of_mem h
  rw [admissions_of_entries (Event.entries_of_completion completion),
    ends_of_other completion (attemptAt?_eq_none_of_abstract sound.apart hitem ha hid)]
  exact log.untouched a ha id hid

theorem onCompletion (turn : Turn p s s' c) : Log p (es ++ [e]) s' := by
  have hadmissions : ∀ id, admissions id (es ++ [e]) = admissions id es :=
    fun id => admissions_of_entries (Event.entries_of_completion completion)
  refine ⟨fun t ht => ?_, fun t ht => log.underWay_of_stays sound left completion ht,
    fun a ha id hid => log.untouched_of_stays sound left completion ?_ hid,
    fun o ho id hplace => ?_, fun id => ?_⟩
  · cases turn with
    | barren waits told unmodelled =>
      exact log.waiting_of_stays sound left completion (waits ▸ ht)
    | ended waits told => exact log.waiting_of_stays sound left completion (waits ▸ ht)
    | @fanned a models tasks own waits told =>
      rw [waits] at ht
      rcases Multiset.mem_add.1 ht with hold | hnew
      · exact log.waiting_of_stays sound left completion hold
      · obtain ⟨i, hi, heq⟩ := List.mem_map.1 (Multiset.mem_coe.1 hnew)
        cases heq
        have ha : .abstractTask a ∈ s.live := by
          rw [live, left]
          exact Multiset.mem_add.2 (.inr (Multiset.mem_cons_self _ _))
        have hnone : (WorkItem.abstractTask a).attemptAt? i.1 = none := rfl
        obtain ⟨hadmitted, hended⟩ := log.untouched a ha i.1 (own i hi)
        rw [hadmissions, ends_of_other completion hnone, hadmitted, hended]
        exact ⟨.first, rfl⟩
    | @again t' solution next more waits told =>
      rw [waits] at ht
      rcases Multiset.mem_cons.1 ht with hnew | hold
      · cases hnew
        obtain ⟨hcourse, hadmitted⟩ := log.admissions_of_task left completion
        dsimp only
        rw [ends_of_self completion, hadmitted, List.map_append]
        exact ⟨.next hcourse more, rfl⟩
      · exact log.waiting_of_stays sound left completion hold
  · -- Nothing but tasks is added to what waits.
    refine Multiset.mem_add.2 ((Multiset.mem_add.1 ha).imp_left fun hwaiting => ?_)
    cases turn with
    | barren waits told unmodelled => exact waits ▸ hwaiting
    | ended waits told => exact waits ▸ hwaiting
    | fanned own waits told =>
      rw [waits] at hwaiting
      rcases Multiset.mem_add.1 hwaiting with hold | hnew
      · exact hold
      · obtain ⟨i, hi, heq⟩ := List.mem_map.1 (Multiset.mem_coe.1 hnew)
        cases heq
    | again more waits told =>
      rw [waits] at hwaiting
      rcases Multiset.mem_cons.1 hwaiting with hnew | hold
      · cases hnew
      · exact hold
  · cases turn with
    | @barren a models new waits told unmodelled =>
      rw [told] at ho
      rcases List.mem_append.1 ho with hold | hnew
      · rw [hadmissions]
        exact log.told o hold id hplace
      · exact absurd hplace (o.place_ne_of_unmodelled (unmodelled o hnew) id)
    | fanned own waits told =>
      rw [hadmissions]
      exact log.told o (told ▸ ho) id hplace
    | again more waits told =>
      rw [hadmissions]
      exact log.told o (told ▸ ho) id hplace
    | @ended t solution status waits told =>
      rw [told] at ho
      rcases List.mem_append.1 ho with hold | hnew
      · rw [hadmissions]
        exact log.told o hold id hplace
      · rw [List.mem_singleton.1 hnew] at hplace ⊢
        have hid : t.id = id := TaskId.place_injective hplace
        obtain ⟨hcourse, hadmitted⟩ := log.admissions_of_task left completion
        rw [← hid, hadmitted, List.length_append, List.length_map, hcourse.length_eq]
        rfl
  · rw [hadmissions]
    exact log.paced id

end

end Log

theorem start_log (r : Run) (fragments : FragmentSet) (p : Escalation) :
    Log p [] (r.start fragments) := by
  have haside := start_aside r fragments
  have htasks : ∀ t, .task t ∉ (r.start fragments).live := by
    intro t ht
    rw [live_start] at ht
    obtain ⟨t', _, heq⟩ := List.mem_map.1 (Multiset.mem_coe.1 ht)
    cases heq
  refine ⟨fun t ht => ?_, fun t ht => ?_, fun a ha id hid => ⟨rfl, rfl⟩, fun o ho => ?_,
    fun id => paced_nil p⟩
  · exact absurd (Multiset.mem_add.2 (.inl ht)) (htasks t)
  · exact absurd (Multiset.mem_add.2 (.inr ht)) (htasks t)
  · rw [haside.outcomes_eq] at ho
    exact absurd ho List.not_mem_nil

section
variable {r : Run} {p : Escalation} {fragments : FragmentSet} {workers : Nat} {y y' : System}

theorem Step.log (step : Step r y e y') (wf : r.classes.WellFormed) (sound : y.Sound r)
    (distinct : ∀ c ∈ e.completion?, c.DistinctModels)
    (governed : Governed p y.state.live y.state.governor) (positive : 0 < p.maxAttempts)
    (accepted : p.ceiling.dominates p.defaults = true)
    (silent : ∀ t, .task t ∈ y.state.live →
      t.id.place ∉ y.state.report.outcomes.map TaskOutcome.place)
    (log : Log p es y.state) : Log p (es ++ [e]) y'.state := by
  have hkept : ∀ o ∈ y.state.report.outcomes, o ∈ y.state.report.outcomes ∨ o.model = none ∨
      ∃ t, .task t ∈ y.state.unadmitted ∧ o.place = t.id.place ∧ o.attempts = t.attempt :=
    fun o ho => .inl ho
  cases hcompletion : e.completion? with
  | some c =>
    obtain ⟨hmem, now, hstate⟩ := step.state_of_completion sound hcompletion
    have hleft := (onCompletion_sound wf now (distinct c hcompletion) sound.state hmem).2
    have hturn := (governed.onCompletion (r := r) sound.state hmem now).2
    rw [hstate]
    exact log.onCompletion sound.state hleft hcompletion hturn
  | none =>
    cases step with
    | @enter item rest now running room next =>
      rw [sound.admitNext_state next room now]
      refine log.enter sound.state next now positive accepted fun t ht => silent t ?_
      rw [live_of_next? next, ht]
      exact Multiset.mem_cons_self _ _
    | refuse now running first => cases hcompletion
    | handle now going settled first => cases hcompletion
    | strand now aborted quiet left => cases hcompletion
    | @drop item rest aborted quiet none next =>
      obtain ⟨hunadmitted, backlog, retries, hrest⟩ := unadmitted_of_next? next
      have hunderWay : (r.dropItem item rest).underWay = y.state.underWay := by
        rw [underWay, (dropItem_live r item rest).2, hrest]
        rfl
      have hreport : rest.report = y.state.report := by rw [hrest]
      obtain ⟨hwaits, htold⟩ := dropItem_told r item rest
      refine log.keep rfl rfl ?_ hunderWay fun o ho => ?_
      · rw [hwaits, hunadmitted]
        exact Multiset.le_cons_self _ _
      · rcases htold o ho with hold | hmodel | ⟨t, rfl, rfl⟩
        · exact .inl (hreport ▸ hold)
        · exact .inr (.inl hmodel)
        · refine .inr (.inr ⟨t, ?_, rfl, rfl⟩)
          rw [hunadmitted]
          exact Multiset.mem_cons_self _ _
    | finish now running settled done =>
      obtain ⟨_, _, _, _, heq⟩ := finish_eq now y.state
      rw [heq]
      exact log.keep rfl rfl (le_refl _) rfl hkept
    | conclude now aborted quiet none empty =>
      obtain ⟨_, _, _, _, heq⟩ := finish_eq now y.state
      rw [heq]
      exact log.keep rfl rfl (le_refl _) rfl hkept
    | observe running => exact log.keep rfl rfl (le_refl _) rfl hkept
    | receive waits free => exact log.keep rfl rfl (le_refl _) rfl hkept
    | complete busy => exact log.keep rfl rfl (le_refl _) rfl hkept
    | report done room => exact log.keep rfl rfl (le_refl _) rfl hkept
    | lose => exact log.keep rfl rfl (le_refl _) rfl hkept
    | cancel running settled => exact log.keep rfl rfl (le_refl _) rfl hkept
    | abort draining => exact log.keep rfl rfl (le_refl _) rfl hkept

theorem Config.escalation_of_accepted {c : Config} (h : c.fault? = none) :
    0 < c.escalation.maxAttempts ∧ c.escalation.ceiling.dominates c.escalation.defaults = true := by
  unfold Config.fault? at h
  dsimp only at h
  split_ifs at h with hadmitted hpatterns hattempts hfactors hceiling
  have hdominates : c.rescheduling.ceiling.dominates c.limits = true := by simpa using hceiling
  exact ⟨Nat.pos_of_ne_zero hattempts, hdominates⟩

theorem Trace.log (wf : r.classes.WellFormed) (ordered : Dict.Ordered fragments)
    (run : Trace r fragments workers es y) (distinct : ∀ c ∈ handled es, c.DistinctModels)
    (accepted : r.config.fault? = none) : Log r.config.escalation es y.state := by
  obtain ⟨hpositive, hceiling⟩ := Config.escalation_of_accepted accepted
  refine run.keeps (P := fun es y => Log r.config.escalation es y.state) distinct
    (start_log r fragments _) fun run before last next log => ?_
  have hacc := run.accounts wf ordered before
  refine next.log wf (run.sound wf ordered before) last (run.governed wf ordered before)
    hpositive hceiling (fun t ht => ?_) log
  exact hacc.no_outcome wf (nodup_abstractTasks wf ordered) ht

/-- Only what an event admits joins the items under way, and it joins them at the end. -/
theorem Step.inFlight_eq (step : Step r y e y') (wf : r.classes.WellFormed) (sound : y.Sound r)
    (distinct : ∀ c ∈ e.completion?, c.DistinctModels) :
    ∃ kept, kept.Sublist y.state.inFlight ∧ y'.state.inFlight = kept ++ e.entries := by
  cases hcompletion : e.completion? with
  | some c =>
    obtain ⟨hmem, now, hstate⟩ := step.state_of_completion sound hcompletion
    rw [hstate, Event.entries_of_completion hcompletion,
      onCompletion_inFlight wf now (distinct c hcompletion) sound.state hmem]
    exact ⟨_, List.filter_sublist, (List.append_nil _).symm⟩
  | none =>
    have hkept : ∀ {s : State}, s.inFlight = y.state.inFlight →
        ∃ kept, kept.Sublist y.state.inFlight ∧ s.inFlight = kept ++ [] :=
      fun h => ⟨_, .refl _, h.trans (List.append_nil _).symm⟩
    cases step with
    | @enter item rest now running room next =>
      rw [sound.admitNext_state next room now, (enter_sound sound.state next now).2.1]
      exact ⟨_, .refl _, rfl⟩
    | refuse now running first => cases hcompletion
    | handle now going settled first => cases hcompletion
    | strand now aborted quiet left => cases hcompletion
    | @drop item rest aborted quiet none next =>
      obtain ⟨_, backlog, retries, hrest⟩ := unadmitted_of_next? next
      refine hkept ?_
      rw [(dropItem_live r item rest).2, hrest]
    | finish now running settled done => exact hkept (finish_inFlight now y.state)
    | conclude now aborted quiet none empty => exact hkept (finish_inFlight now y.state)
    | observe running => exact hkept rfl
    | receive waits free => exact hkept rfl
    | complete busy => exact hkept rfl
    | report done room => exact hkept rfl
    | lose => exact hkept rfl
    | cancel running settled => exact hkept rfl
    | abort draining => exact hkept rfl

end

structure Discipline (r : Run) (id : TaskId) (es : List Event) (y : System) : Prop where
  /-- Nothing but what an event admits joins the items under way. -/
  inserted : ∀ e y', Step r y e y' → ∃ kept, kept.Sublist y.state.inFlight ∧
    y'.state.inFlight = kept ++ e.entries
  paced : Paced r.config.escalation (admissions id es)
  /-- Whenever an attempt is admitted, all attempts before it have come back, and each of them
  had run out of something. -/
  granted : ∀ before t now after, es = before ++ .enter (.task t) now :: after → t.id = id →
    admissions id before = (ends id before).map Prod.fst ∧ (ends id before).length = t.attempt ∧
      ∀ e ∈ ends id before, e.2.isExhausted = true
  told : ∀ o ∈ y.state.report.outcomes, o.place = id.place →
    o.attempts = (admissions id es).length

/-- In every run, also in one that is cancelled, every task is attempted as the policy of the
configuration says, and the report says how often. -/
theorem discipline_of_trace {r : Run} {digest : List ConfiguredStage → String}
    {rs : List Requirement} (classes : r.classes = RequirementClasses.classifyWith digest rs)
    (distinct : (rs.map (·.identifier)).Nodup) (accepted : r.config.fault? = none)
    {fragments : FragmentSet} (ordered : Dict.Ordered fragments) {workers : Nat}
    {es : List Event} {y : System} (run : Trace r fragments workers es y)
    (answers : Answers Completion.DistinctModels es) (id : TaskId) : Discipline r id es y := by
  have hwf := RequirementClasses.WellFormed.of_eq classes distinct
  have hdistinct := run.distinct_handled answers
  have hlog := run.log hwf ordered hdistinct accepted
  refine ⟨fun e y' next => ?_, hlog.paced id, fun before t now after hsplit hid => ?_,
    fun o ho hplace => hlog.told o ho id hplace⟩
  · exact next.inFlight_eq hwf (run.sound hwf ordered hdistinct) (run.distinct_next answers next)
  · -- What the log says of the task in the state in which it was admitted.
    obtain ⟨y₁, y₂, hbefore, hstep⟩ := run.of_split hsplit
    have hanswers : Answers Completion.DistinctModels before :=
      fun c hc => answers c (hsplit ▸ List.mem_append_left _ hc)
    have hlog₁ := hbefore.log hwf ordered (hbefore.distinct_handled hanswers) accepted
    cases hstep with
    | enter _ running room next =>
      obtain ⟨hunadmitted, _⟩ := unadmitted_of_next? next
      have hwaits : .task t ∈ y₁.state.unadmitted := by
        rw [hunadmitted]
        exact Multiset.mem_cons_self _ _
      obtain ⟨hcourse, hadmitted⟩ := hlog₁.waiting t hwaits
      rw [← hid]
      exact ⟨hadmitted, hcourse.length_eq, hcourse.exhausted⟩

/-- The first attempt runs out of memory, the second one has twice as much and succeeds. -/
theorem discipline_of_sample :
    ∃ es y, Trace (sample 1 true) [("f", ⟨"f.json"⟩)] 1 es y ∧ y.phase = .returned ∧
      (admissions ⟨"f", "alloc", "m", "alloc"⟩ es).map (·.limits.memory) =
        [1000000000, 2000000000] ∧
      Discipline (sample 1 true) ⟨"f", "alloc", "m", "alloc"⟩ es y := by
  let t : AbstractTask := ⟨⟨"f", "alloc"⟩, ⟨"f.json"⟩⟩
  let m : EnvModel := ⟨"m", ⟨"m"⟩, ⟨"m.json"⟩⟩
  let t' : Task := ⟨⟨"f", "alloc", "m", "alloc"⟩, 0, .standard, m.artifact⟩
  let further := (sample 1 true).config.escalation.escalate .standard .memory
  have modelled := @Trace.turn (sample 1 true) [("f", ⟨"f.json"⟩)] 1 _ []
    (.abstractTask t (.ok [m])) _ _ .start rfl (by decide) ⟨1⟩
  have stopped := @Trace.turn _ _ _ _ _ (.task t' (.ofStatus (.exhausted .memory))) _ _ modelled rfl
    (by decide) ⟨2⟩
  have solved := @Trace.turn _ _ _ _ _
    (.task { t' with attempt := 1, limits := further } .finished) _ _ stopped rfl (by decide) ⟨3⟩
  have finished := solved.step (.finish ⟨4⟩ rfl rfl (by decide +kernel))
  refine ⟨_, _, finished, rfl, by decide +kernel, ?_⟩
  refine @discipline_of_trace _ fingerprint _ rfl (by decide) (by decide) _ ?_ _ _ _ finished ?_ _
  · exact List.pairwise_singleton _ _
  · intro c hc
    simp at hc
    rcases hc with rfl | rfl | rfl
    · exact List.nodup_singleton _
    · exact trivial
    · exact trivial

end Run
end TaskGen
