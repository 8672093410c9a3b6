import TaskGen.Proofs.Run.Attempts
import TaskGen.Proofs.Submissions
import TaskGen.Run.Schedule

/-!
How many attempts at a task the scheduler has accepted, and how many the report tells.  The report
tells how many were admitted.  An attempt is followed by another one only if it ran out of
something, and then it was submitted, so nothing but the last attempt can be missing among those
that the scheduler has accepted.  It is missing if a stage failed or the worker did not get to it,
and then the report tells one attempt too many.

Main statement: `recount_of_submitting`.
-/

namespace TaskGen

theorem Paced.nodup {p : Escalation} {tries : List Task} (h : Paced p tries) : tries.Nodup := by
  have hnumbers := List.nodup_range (n := tries.length)
  rw [← h.numbered] at hnumbers
  exact hnumbers.of_map _

theorem WorkItem.eq_of_attemptAt? {id : TaskId} {item : WorkItem} {t : Task}
    (h : item.attemptAt? id = some t) : item = .task t ∧ t.id = id := by
  cases item with
  | abstractTask a => cases h
  | task t' =>
    rw [attemptAt?] at h
    split at h
    · next hid =>
      cases h
      exact ⟨rfl, hid⟩
    · cases h

namespace Run

open State

variable {σ : Type} {r : Run} {k : Worker σ} {fragments : FragmentSet} {workers : Nat}
  {es : List Event} {y y' : System} {sent : List Task} {e : Event} {t : Task} {id : TaskId}

/-- What the completion says of an attempt the worker says of it in some world, and there it has
submitted the attempt exactly if that is one of those that were accepted. -/
def Honest (k : Worker σ) (sent : List Task) (c : Completion) : Prop :=
  ∀ t solution, c = .task t solution → ∃ world : World σ,
    (k.serve (.task t) world).1 = some c ∧ (k.Submits t world ↔ t ∈ sent)

/-- A trace in which every answer to an attempt is one of the worker, with all attempts that the
scheduler has accepted so far. -/
inductive Submitting (r : Run) (k : Worker σ) (fragments : FragmentSet) (workers : Nat) :
    List Event → System → List Task → Prop where
  | start : Submitting r k fragments workers [] (.start r fragments workers) []
  | step {es : List Event} {e : Event} {y y' : System} {sent : List Task}
      (run : Submitting r k fragments workers es y sent) (next : Step r y e y')
      (honest : ∀ c, e = .complete c → Honest k sent c) :
      Submitting r k fragments workers (es ++ [e]) y' sent
  /-- A worker submits what it has in its hands.  It may never get to the answer. -/
  | submit {es : List Event} {y : System} {sent : List Task} {t : Task}
      (run : Submitting r k fragments workers es y sent) (busy : .working (.task t) ∈ y.hands)
      (once : t ∉ sent) : Submitting r k fragments workers es y (sent ++ [t])

theorem Submitting.trace (run : Submitting r k fragments workers es y sent) :
    Trace r fragments workers es y := by
  induction run with
  | start => exact .start
  | step run next honest ih => exact ih.step next
  | submit run busy once ih => exact ih

/-- A worker may submit what it has in its hands, or not. -/
theorem Submitting.perhaps (run : Submitting r k fragments workers es y sent) {item : WorkItem}
    (busy : .working item ∈ y.hands) {sent' : List Task}
    (h : sent' = sent ∨ ∃ t, item = .task t ∧ t ∉ sent ∧ sent' = sent ++ [t]) :
    Submitting r k fragments workers es y sent' := by
  rcases h with rfl | ⟨t, rfl, once, rfl⟩
  · exact run
  · exact run.submit busy once

/-- An item is admitted, worked on and dealt with before anything else happens. -/
theorem Submitting.turn {c : Completion} {s rest : State} {others : List Hand} {sent' : List Task}
    (run : Submitting r k fragments workers es (.quiet r s (.idle :: others)) sent)
    (next : s.next? = some (c.item, rest)) (room : s.inFlight.length < r.limit) (now : Duration)
    (submitted : sent' = sent ∨ ∃ t, c.item = .task t ∧ t ∉ sent ∧ sent' = sent ++ [t])
    (honest : Honest k sent' c) :
    Submitting r k fragments workers
      (es ++ [.enter c.item now] ++ [.receive c.item] ++ [.complete c] ++ [.report c] ++
        [.handle c now])
      (.quiet r (r.onCompletion now c (rest.enter c.item now)) (.idle :: others)) sent' := by
  have hlimit : 0 < r.limit := Nat.lt_of_le_of_lt (Nat.zero_le _) room
  have hentered := run.step (.enter now rfl room next) fun _ h => Event.noConfusion h
  rw [System.admitNext_quiet next room] at hentered
  have hreceived := hentered.step (@Step.receive _ _ _ _ [] _ rfl rfl)
    fun _ h => Event.noConfusion h
  have hsubmitted := hreceived.perhaps List.mem_cons_self submitted
  have hcompleted := hsubmitted.step (@Step.complete _ _ c [] _ rfl) fun _ h => by
    cases h
    exact honest
  have hreported := hcompleted.step (@Step.report _ _ _ [] _ rfl hlimit)
    fun _ h => Event.noConfusion h
  exact hreported.step (@Step.handle _ _ _ [] now (by simp [System.quiet]) rfl rfl)
    fun _ h => Event.noConfusion h

/-! ### Submissions and admissions -/

def submissions (id : TaskId) (sent : List Task) : List Task := sent.filter fun t => t.id = id

theorem mem_submissions : t ∈ submissions id sent ↔ t ∈ sent ∧ t.id = id := by
  simp [submissions]

theorem submissions_append_self (t : Task) (sent : List Task) :
    submissions t.id (sent ++ [t]) = submissions t.id sent ++ [t] := by
  simp [submissions]

theorem submissions_append_of_ne (h : t.id ≠ id) (sent : List Task) :
    submissions id (sent ++ [t]) = submissions id sent := by
  simp [submissions, h]

/-- All attempts were submitted, except that the last one may be missing. -/
def Behind (tries accepted : List Task) : Prop :=
  ∃ last : Option Task, tries = accepted ++ last.toList

section
variable {tries accepted : List Task} (h : Behind tries accepted)
include h

theorem Behind.cases (nodup : tries.Nodup) :
    tries = accepted ∨ ∃ t, tries = accepted ++ [t] ∧ t ∉ accepted := by
  obtain ⟨last, rfl⟩ := h
  cases last with
  | none => exact .inl (List.append_nil _)
  | some t =>
    refine .inr ⟨t, rfl, fun hmem => ?_⟩
    exact (List.nodup_append.1 nodup).2.2 t hmem t (List.mem_singleton.2 rfl) rfl

theorem Behind.eq (nodup : tries.Nodup) (last : ∀ t, tries.getLast? = some t → t ∈ accepted) :
    tries = accepted := by
  rcases h.cases nodup with heq | ⟨t, heq, hmissing⟩
  · exact heq
  · rw [heq] at last
    exact absurd (last t List.getLast?_concat) hmissing

theorem Behind.numbered {p : Escalation} (paced : Paced p tries) :
    accepted.map (·.attempt) = List.range accepted.length := by
  obtain ⟨last, hlast⟩ := h
  have hprefix : accepted.map (·.attempt) <+: tries.map (·.attempt) := by
    rw [hlast, List.map_append]
    exact List.prefix_append _ _
  have hlength := hprefix.length_le
  rw [List.length_map, List.length_map] at hlength
  rw [paced.numbered, List.prefix_iff_eq_take, List.length_map, List.take_range,
    Nat.min_eq_left hlength] at hprefix
  exact hprefix

end

theorem mem_handled_of_mem_ends {p : Task × Status} (h : p ∈ ends id es) :
    ∃ solution, .task p.1 solution ∈ handled es ∧ solution.status = p.2 ∧ p.1.id = id := by
  obtain ⟨c, hc, hp⟩ := List.mem_filterMap.1 h
  cases c with
  | abstractTask a models => cases hp
  | task t solution =>
    rw [Completion.endAt?] at hp
    split at hp
    · next hid =>
      cases hp
      exact ⟨solution, hc, rfl, hid⟩
    · cases hp

theorem Event.entries_cases (e : Event) : e.entries = [] ∨ ∃ item now, e = .enter item now := by
  cases e with
  | enter item now => exact .inr ⟨item, now, rfl⟩
  | _ => exact .inl rfl

/-- What is admitted was waiting. -/
theorem Step.waits {item : WorkItem} {now : Duration} (next : Step r y (.enter item now) y') :
    item ∈ y.state.unadmitted := by
  cases next with
  | enter _ running room next =>
    rw [(unadmitted_of_next? next).1]
    exact Multiset.mem_cons_self _ _

/-! ### One step -/

structure Sending (es : List Event) (sent : List Task) : Prop where
  behind : ∀ id, Behind (admissions id es) (submissions id sent)
  /-- Whatever comes back otherwise than as failed or crashed was accepted. -/
  accepted : ∀ t solution, .complete (.task t solution) ∈ es → solution.status ≠ .failed →
    solution.status ≠ .crashed → t ∈ sent
  modelled : ∀ t ∈ sent, t.id.model ∈ yielded t.id.abstractId (handled es)

namespace Sending

theorem of_end (sending : Sending es sent) (run : Trace r fragments workers es y)
    {p : Task × Status} (hp : p ∈ ends id es) (hfailed : p.2 ≠ .failed)
    (hcrashed : p.2 ≠ .crashed) : p.1 ∈ submissions id sent := by
  obtain ⟨solution, hhandled, hstatus, hid⟩ := mem_handled_of_mem_ends hp
  rw [← hstatus] at hfailed hcrashed
  apply mem_submissions.2
  refine ⟨?_, hid⟩
  rcases run.of_handled _ hhandled with hcomplete | ⟨item, reason, heq⟩
  · exact sending.accepted _ _ hcomplete hfailed hcrashed
  · cases item with
    | abstractTask a => cases heq
    | task t =>
      cases heq
      exact absurd rfl hcrashed

/-- All attempts before the one that is due were submitted. -/
theorem eq_of_waiting (sending : Sending es sent) (run : Trace r fragments workers es y)
    {p : Escalation} (log : Log p es y.state) (h : .task t ∈ y.state.unadmitted) :
    admissions t.id es = submissions t.id sent := by
  obtain ⟨hcourse, hadmissions⟩ := log.waiting t h
  apply (sending.behind t.id).eq (log.paced t.id).nodup
  intro t' ht'
  have hmem := List.mem_of_getLast? ht'
  rw [hadmissions] at hmem
  obtain ⟨end', hend, rfl⟩ := List.mem_map.1 hmem
  have hexhausted := hcourse.exhausted end' hend
  apply sending.of_end run hend
  · intro hfailed
    rw [hfailed] at hexhausted
    cases hexhausted
  · intro hcrashed
    rw [hcrashed] at hexhausted
    cases hexhausted

theorem step (sending : Sending es sent) (run : Trace r fragments workers es y)
    (next : Step r y e y') {p : Escalation} (log : Log p es y.state)
    (honest : ∀ c, e = .complete c → Honest k sent c) : Sending (es ++ [e]) sent := by
  refine ⟨fun id => ?_, fun t solution hcomplete hfailed hcrashed => ?_, fun t ht => ?_⟩
  · rcases e.entries_cases with hnone | ⟨item, now, rfl⟩
    · rw [admissions_of_entries hnone]
      exact sending.behind id
    · cases hitem : item.attemptAt? id with
      | none =>
        rw [admissions_enter hitem]
        exact sending.behind id
      | some t =>
        obtain ⟨rfl, rfl⟩ := WorkItem.eq_of_attemptAt? hitem
        rw [admissions_enter_self, sending.eq_of_waiting run log next.waits]
        exact ⟨some t, rfl⟩
  · rcases List.mem_append.1 hcomplete with hold | hlast
    · exact sending.accepted t solution hold hfailed hcrashed
    · obtain ⟨world, hserve, hsubmits⟩ := honest _ (List.mem_singleton.1 hlast).symm t solution rfl
      apply hsubmits.1
      by_contra hnot
      rcases Worker.status_of_not_submits hnot hserve with h | h
      · exact hfailed h
      · exact hcrashed h
  · rw [handled_append, yielded, List.flatMap_append]
    exact List.mem_append_left _ (sending.modelled t ht)

/-- A worker has nothing but the last attempt that was admitted, so that is what it submits. -/
theorem submit (sending : Sending es sent) (sound : y.Sound r) {p : Escalation}
    (log : Log p es y.state) (found : ∀ t, .task t ∈ y.state.live →
      t.id.model ∈ yielded t.id.abstractId (handled es))
    (busy : .working (.task t) ∈ y.hands) (once : t ∉ sent) : Sending es (sent ++ [t]) := by
  have hunderWay : .task t ∈ y.state.underWay := by
    apply Multiset.mem_of_le sound.known
    simp only [System.outside, Multiset.mem_add, Multiset.mem_coe]
    refine .inl (.inl (.inr (List.mem_flatMap.2 ⟨_, busy, ?_⟩)))
    exact List.mem_singleton.2 rfl
  refine ⟨fun id => ?_, fun t' solution hcomplete hfailed hcrashed => ?_, fun t' ht' => ?_⟩
  · by_cases hid : t.id = id
    · subst hid
      obtain ⟨-, hadmissions⟩ := log.underWay t hunderWay
      obtain ⟨last, hlast⟩ := sending.behind t.id
      rw [submissions_append_self]
      rw [hadmissions] at hlast ⊢
      cases last with
      | none =>
        have hmem : t ∈ submissions t.id sent := by
          rw [Option.toList_none, List.append_nil] at hlast
          rw [← hlast]
          exact List.mem_append_right _ (List.mem_singleton.2 rfl)
        exact absurd (mem_submissions.1 hmem).1 once
      | some t' =>
        obtain ⟨htried, -⟩ := List.append_inj' hlast rfl
        rw [htried]
        exact ⟨none, (List.append_nil _).symm⟩
    · rw [submissions_append_of_ne hid]
      exact sending.behind id
  · exact List.mem_append_left _ (sending.accepted t' solution hcomplete hfailed hcrashed)
  · rcases List.mem_append.1 ht' with hold | hnew
    · exact sending.modelled t' hold
    · rw [List.mem_singleton.1 hnew]
      exact found t (Multiset.mem_add.2 (.inr hunderWay))

end Sending

/-! ### Models -/

theorem yielded_of_mem_places {c : RequirementClass} {pair : AbstractTaskId} {models : List String}
    {p : Place} (h : p ∈ c.places pair models) :
    (∀ m, p.model = some m → m ∈ models) ∧ (p.model = none → models = []) := by
  by_cases hnil : models = []
  · subst hnil
    obtain ⟨q, -, rfl⟩ := List.mem_map.1 h
    exact ⟨fun m hm => (Option.some_ne_none m hm.symm).elim, fun _ => rfl⟩
  · rw [c.places_of_ne_nil pair hnil] at h
    obtain ⟨m, hm, hq⟩ := List.mem_flatMap.1 h
    obtain ⟨q, -, rfl⟩ := List.mem_map.1 hq
    refine ⟨fun m' hm' => ?_, fun hnone => (Option.some_ne_none m hnone).elim⟩
    cases hm'
    exact hm

/-- A place that the report has, or will have, is for a model that was found, or there is none. -/
theorem yielded_of_mem_expected {pairs : List AbstractTaskId} {cs : List Completion} {p : Place}
    (h : p ∈ r.expected pairs cs) :
    (∀ m, p.model = some m → m ∈ yielded p.pair cs) ∧
      (p.model = none → yielded p.pair cs = []) := by
  obtain ⟨pair, -, hp⟩ := List.mem_flatMap.1 h
  rw [pair_of_mem_entries hp]
  unfold entries at hp
  split at hp
  · cases hp
  · exact yielded_of_mem_places hp

section
variable {pairs : List AbstractTaskId} {cs : List Completion} {s : State}

theorem Accounts.mem_expected (acc : Accounts r pairs cs s) {p : Place}
    (h : p ∈ s.report.outcomes.map TaskOutcome.place ∨ p ∈ r.debts s.live) :
    p ∈ r.expected pairs cs := by
  have hplaces : p ∈ (↑(s.report.outcomes.map TaskOutcome.place) : Multiset Place) +
      r.debts s.live := Multiset.mem_add.2 (h.imp_left Multiset.mem_coe.2)
  rw [acc.balance] at hplaces
  exact Multiset.mem_coe.1 hplaces

theorem Accounts.yielded_of_live (acc : Accounts r pairs cs s) (h : .task t ∈ s.live) :
    t.id.model ∈ yielded t.id.abstractId cs := by
  have hdebt : t.id.place ∈ r.debts s.live :=
    Multiset.mem_bind.2 ⟨_, h, Multiset.mem_coe.2 (List.mem_singleton.2 rfl)⟩
  exact (yielded_of_mem_expected (acc.mem_expected (.inr hdebt))).1 _ rfl

theorem Accounts.yielded_of_outcome (acc : Accounts r pairs cs s) {o : TaskOutcome}
    (ho : o ∈ s.report.outcomes) (unmodelled : o.model = none) :
    yielded o.place.pair cs = [] := by
  have hplace : o.place ∈ s.report.outcomes.map TaskOutcome.place := List.mem_map_of_mem ho
  exact (yielded_of_mem_expected (acc.mem_expected (.inl hplace))).2 unmodelled

end

/-! ### Every run -/

section
variable (wf : r.classes.WellFormed) (ordered : Dict.Ordered fragments)
  (accepted : r.config.fault? = none)
include wf ordered accepted

theorem Submitting.sending (run : Submitting r k fragments workers es y sent)
    (distinct : ∀ c ∈ handled es, c.DistinctModels) : Sending es sent := by
  induction run with
  | start =>
    exact ⟨fun id => ⟨none, rfl⟩, fun t solution h => absurd h List.not_mem_nil,
      fun t h => absurd h List.not_mem_nil⟩
  | @step es e y y' sent run next honest ih =>
    have hbefore : ∀ c ∈ handled es, c.DistinctModels := by
      intro c hc
      apply distinct
      rw [handled_append]
      exact List.mem_append_left _ hc
    exact (ih hbefore).step run.trace next (run.trace.log wf ordered hbefore accepted) honest
  | submit run busy once ih =>
    have htrace := run.trace
    exact (ih distinct).submit (htrace.sound wf ordered distinct)
      (htrace.log wf ordered distinct accepted)
      (fun t => (htrace.accounts wf ordered distinct).yielded_of_live) busy once

/-- Behind an end that asks for no further attempt no attempt is admitted. -/
theorem Trace.admissions_of_ended (run : Trace r fragments workers es y)
    (distinct : ∀ c ∈ handled es, c.DistinctModels) {p : Task × Status} (hp : p ∈ ends id es)
    (ended : p.2.isExhausted = false) : admissions id es = (ends id es).map Prod.fst := by
  revert hp
  refine run.keeps (P := fun es _ => p ∈ ends id es → admissions id es = (ends id es).map Prod.fst)
    distinct (fun h => absurd h List.not_mem_nil) fun {es e y y'} run before last next ih hp => ?_
  have hlog := run.log wf ordered before accepted
  have hsound := run.sound wf ordered before
  cases hcompletion : e.completion? with
  | none =>
    rw [ends_of_none hcompletion] at hp ⊢
    rcases e.entries_cases with hnone | ⟨item, now, rfl⟩
    · rw [admissions_of_entries hnone]
      exact ih hp
    · cases hitem : item.attemptAt? id with
      | none =>
        rw [admissions_enter hitem]
        exact ih hp
      | some t =>
        obtain ⟨rfl, rfl⟩ := WorkItem.eq_of_attemptAt? hitem
        have hexhausted := (hlog.waiting t next.waits).1.exhausted p hp
        rw [ended] at hexhausted
        cases hexhausted
  | some c =>
    rw [admissions_of_entries (Event.entries_of_completion hcompletion)]
    cases hitem : c.item.attemptAt? id with
    | none =>
      rw [ends_of_other hcompletion hitem] at hp ⊢
      exact ih hp
    | some t =>
      obtain ⟨hmem, now, hstate⟩ := next.state_of_completion hsound hcompletion
      cases c with
      | abstractTask a models => cases hitem
      | task t' solution =>
        obtain ⟨heq, rfl⟩ := WorkItem.eq_of_attemptAt? hitem
        cases heq
        rw [ends_of_self hcompletion, List.map_append]
        exact (hlog.underWay t hmem).2

end

structure Recount (o : TaskOutcome) (tries accepted : List Task) : Prop where
  told : o.attempts = tries.length
  /-- Every attempt was submitted once, only the last one may be missing. -/
  behind : tries = accepted ∨ ∃ t, tries = accepted ++ [t] ∧ t ∉ accepted
  numbered : accepted.map (·.attempt) = List.range accepted.length
  /-- The number is that of the submissions exactly if the last attempt was submitted. -/
  exact_iff : o.attempts = accepted.length ↔ ∀ t, tries.getLast? = some t → t ∈ accepted
  finished : o.status = .finished → o.attempts = accepted.length

theorem recount_of_behind {o : TaskOutcome} {p : Escalation} {tries accepted : List Task}
    (told : o.attempts = tries.length) (paced : Paced p tries) (behind : Behind tries accepted)
    (finished : o.status = .finished → ∀ t, tries.getLast? = some t → t ∈ accepted) :
    Recount o tries accepted where
  told := told
  behind := behind.cases paced.nodup
  numbered := behind.numbered paced
  exact_iff := by
    rw [told]
    constructor
    · intro hlength t ht
      rcases behind.cases paced.nodup with heq | ⟨missing, heq, -⟩
      · rw [heq] at ht
        exact List.mem_of_getLast? ht
      · rw [heq, List.length_append, List.length_singleton] at hlength
        omega
    · intro hlast
      rw [behind.eq paced.nodup hlast]
  finished h := by
    rw [told, behind.eq paced.nodup (finished h)]

theorem exists_last_end {o : TaskOutcome} (settled : o.Settled (handled es))
    (place : o.place = id.place) (finished : o.status = .finished) :
    ∃ p, (ends id es).getLast? = some p ∧ p.2 = .finished := by
  have hmodel : o.model = some id.model := congrArg Place.model place
  have hid : (⟨o.fragment, o.classKey, id.model, o.requirement⟩ : TaskId) = id := by
    apply TaskId.place_injective
    rw [← place, TaskOutcome.place, hmodel]
    rfl
  have hstatuses : (handled es).filterMap (Completion.statusOf? id) =
      (ends id es).map Prod.snd := by
    rw [ends, List.map_filterMap]
    congr 1
    funext c
    cases c with
    | abstractTask t models => rfl
    | task t solution =>
      simp only [Completion.statusOf?, Completion.endAt?]
      split <;> rfl
  rw [TaskOutcome.Settled, hmodel] at settled
  have hlast : lastStatus? id (handled es) = some .finished := hid ▸ settled.1 finished
  rw [lastStatus?, hstatuses, List.getLast?_map, Option.map_eq_some_iff] at hlast
  exact hlast

/-- Whatever the workers do and however a run ends, the report tells how often an attempt at the
task was admitted.  All of these attempts were submitted, in this order, except perhaps the last
one. -/
theorem recount_of_submitting {digest : List ConfiguredStage → String} {rs : List Requirement}
    (classes : r.classes = RequirementClasses.classifyWith digest rs)
    (distinct : (rs.map (·.identifier)).Nodup) (accepted : r.config.fault? = none)
    (ordered : Dict.Ordered fragments) (run : Submitting r k fragments workers es y sent)
    (answers : Answers Completion.DistinctModels es) :
    ∀ o ∈ y.state.report.outcomes,
      (∀ id, o.place = id.place → Recount o (admissions id es) (submissions id sent)) ∧
      (o.model = none → o.attempts = 0 ∧ ∀ t ∈ sent, t.id.abstractId ≠ o.place.pair) := by
  have hwf := RequirementClasses.WellFormed.of_eq classes distinct
  have htrace := run.trace
  have hdistinct := htrace.distinct_handled answers
  have hlog := htrace.log hwf ordered hdistinct accepted
  have hsending := run.sending hwf ordered accepted hdistinct
  have hacc := htrace.accounts hwf ordered hdistinct
  intro o ho
  have hsettled := hacc.settled o ho
  refine ⟨fun id hplace => ?_, fun hmodel => ⟨?_, fun t ht heq => ?_⟩⟩
  · apply recount_of_behind (hlog.told o ho id hplace) (hlog.paced id) (hsending.behind id)
    intro hfinished t ht
    -- The last attempt that was admitted is the one that was found to be finished.
    obtain ⟨p, hlast, hstatus⟩ := exists_last_end hsettled hplace hfinished
    have hend := List.mem_of_getLast? hlast
    have hadmissions := htrace.admissions_of_ended hwf ordered accepted hdistinct hend
      (by rw [hstatus]; rfl)
    rw [hadmissions, List.getLast?_map, hlast] at ht
    cases ht
    apply hsending.of_end htrace hend <;> simp [hstatus]
  · rw [TaskOutcome.Settled, hmodel] at hsettled
    exact hsettled.2
  · have hmem := hsending.modelled t ht
    rw [heq, hacc.yielded_of_outcome ho hmodel] at hmem
    cases hmem

def poorWorker : Worker Unit :=
  (sample 1 true).worker
    (Registry.empty.register .requirementModel fun i => Pipeline.writeJson i.output .null)
    ⟨fun _ _ => pure "1", fun _ => pure (some (.ofStatus (.exhausted .memory)))⟩ 1

/-- The first attempt is submitted and runs out of memory, and somebody asks for the end of the run
before the worker gets to the second one.  The report tells both. -/
theorem recount_of_sample :
    let id : TaskId := ⟨"f", "alloc", "m", "alloc"⟩
    let o : TaskOutcome := ⟨"f", "alloc", some "m", "alloc", .failed, 2⟩
    ∃ es y sent, Submitting (sample 1 true) poorWorker [("f", ⟨"f.json"⟩)] 1 es y sent ∧
      o ∈ y.state.report.outcomes ∧ (submissions id sent).length = 1 ∧
      Recount o (admissions id es) (submissions id sent) := by
  intro id o
  let t : AbstractTask := ⟨⟨"f", "alloc"⟩, ⟨"f.json"⟩⟩
  let m : EnvModel := ⟨"m", ⟨"m"⟩, ⟨"m.json"⟩⟩
  let t' : Task := ⟨id, 0, .standard, m.artifact⟩
  let further := (sample 1 true).config.escalation.escalate .standard .memory
  let t'' : Task := { t' with attempt := 1, limits := further }
  let world : World Unit := ⟨FileTree.empty, ⟨0⟩, none, ()⟩
  let solved : Solution := .ofStatus (.exhausted .memory)
  have first : Honest poorWorker [t'] (.task t' solved) := by
    obtain ⟨final, hprepare⟩ : ∃ final, poorWorker.prepare t' world =
        (.done final, (poorWorker.prepare t' world).2) :=
      Pipeline.eq_of_isDone (by decide +kernel)
    have hsubmits : poorWorker.Submits t' world := ⟨rfl, final, _, "1", _, hprepare, rfl⟩
    have hsolve : poorWorker.solve t' world =
        (.done solved, (poorWorker.prepare t' world).2) := by
      unfold Worker.solve
      rw [Pipeline.bind_of_done hprepare]
      rfl
    rintro _ _ ⟨⟩
    exact ⟨world, Worker.serve_of_solve_done rfl hsolve, fun _ => List.mem_singleton.2 rfl,
      fun _ => hsubmits⟩
  have second : Honest poorWorker [t'] (.failed (.task t'') "cancelled before start") := by
    rintro _ _ ⟨⟩
    refine ⟨{ world with stopped := some ⟨3⟩ }, ?_, fun h => ?_, fun h => ?_⟩
    · rw [Worker.serve_of_stopped _ (Option.some_ne_none _)]
    · exact absurd h.going (Option.some_ne_none _)
    · exact absurd (congrArg Task.attempt (List.mem_singleton.1 h)) Nat.one_ne_zero
  have modelled := @Submitting.turn _ (sample 1 true) poorWorker [("f", ⟨"f.json"⟩)] 1 _ _
    (.abstractTask t (.ok [m])) _ _ _ _ .start rfl (by decide) ⟨1⟩ (.inl rfl)
    fun _ _ h => Completion.noConfusion h
  have stopped := modelled.turn rfl (by decide) ⟨2⟩ (.inr ⟨t', rfl, List.not_mem_nil, rfl⟩) first
  have given := stopped.turn rfl (by decide) ⟨3⟩ (.inl rfl) second
  have finished := given.step (.finish ⟨4⟩ rfl rfl (by decide +kernel))
    fun _ h => Event.noConfusion h
  refine ⟨_, _, _, finished, by decide +kernel, rfl, ?_⟩
  refine (@recount_of_submitting _ _ _ _ _ _ _ _ fingerprint _ rfl (by decide) (by decide) ?_
    finished ?_ o (by decide +kernel)).1 id rfl
  · exact List.pairwise_singleton _ _
  · intro c hc
    simp at hc
    rcases hc with rfl | rfl | rfl
    · exact List.nodup_singleton _
    · exact trivial
    · exact trivial

def failingWorker : Worker Nat :=
  (sample 1 true).worker
    (Registry.empty.register .requirementModel fun i => Act.fail (.missingOutput i.stage i.output))
    ⟨fun _ _ world => (.done "1", { world with others := world.others + 1 }),
      fun _ => pure (some .finished)⟩ 1

/-- The scheduler has accepted nothing, and the report tells of one attempt. -/
theorem attempt_told_without_submission :
    failingWorker.Counts (fun count => count) ∧
    ((sample 1 true).runFragments failingWorker 3 [("f", ⟨"f.json"⟩)]
      ⟨FileTree.empty.put ["f.json"] (.file "\x7b\"id\": \"f\"\x7d".toUTF8), ⟨0⟩, none, 0⟩).map
        (fun p => (p.1.toOption.map (·.report.outcomes), p.2.others)) =
      some (some [⟨"f", "alloc", some "single", "alloc", .failed, 1⟩], 0) := by
  refine ⟨⟨fun s runner hrunner i => ?_, fun task bundle world id world' h => ?_,
    fun task bundle world h => ?_, fun id => ?_⟩, by decide +kernel⟩
  · simp only [failingWorker, Run.worker, Registry.register, Registry.empty] at hrunner
    split at hrunner
    · cases hrunner
      exact Act.leaves_fail _
    · cases hrunner
  · cases h
    rfl
  · cases h
  · exact Act.leaves_done _

end Run
end TaskGen
