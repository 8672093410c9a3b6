import TaskGen.Proofs.Governor.Calls

/-!
Verdicts and grants.  A ledger takes down what the governor says about one task until the task is
forgotten.  A further attempt is granted by the latest verdict, the number of attempts so far and
whether the task has come to an end.  A verdict looks at the number of attempts only: neither the
end of the task nor a grant that the last verdict has already led to changes it.

Main statement: `granting_of_calls`.
-/

namespace TaskGen
namespace Governor

/-! ### The ledger of a task -/

def Call.verdict? (g : Governor) : Call → Option Verdict
  | .solution id status => some (g.addSolution id status).1
  | _ => none

/-- What has been said about a task since it was last forgotten. -/
structure Ledger where
  /-- There was a call that makes a record of the task. -/
  known : Bool
  /-- The latest verdict. -/
  verdict : Option Verdict
  /-- How many further attempts have been granted. -/
  granted : Nat
  /-- How many of them have been granted after the latest verdict. -/
  since : Nat
  /-- A verdict was final, or a known task was refused a further attempt. -/
  settled : Bool

namespace Ledger

def blank : Ledger := ⟨false, none, 0, 0, false⟩

/-- The ledger after a call on the task, from the answer alone. -/
def hear (l : Ledger) (verdict? : Option Verdict) (grant? : Option Nat) : Call → Ledger
  | .limits _ => { l with known := true }
  | .solution _ _ =>
    { l with
      known := true, verdict := verdict?, since := 0,
      settled := l.settled || decide (verdict? ≠ some .reschedulable) }
  | .reschedule _ _ =>
    if grant?.isSome then { l with granted := l.granted + 1, since := l.since + 1 }
    else { l with settled := l.settled || l.known }
  | .forget _ => blank

def step (id : TaskId) (g : Governor) (l : Ledger) (c : Call) : Ledger :=
  if c.task = id then l.hear (c.verdict? g) (c.grant? g) c else l

def follow (id : TaskId) : Governor → Ledger → List Call → Ledger
  | _, l, [] => l
  | g, l, c :: cs => follow id (c.next g) (l.step id g c) cs

end Ledger

def ledger (p : Escalation) (id : TaskId) (cs : List Call) : Ledger :=
  Ledger.follow id (ofPolicy p) .blank cs

/-! ### One call -/

theorem judge_eq_reschedulable_iff {maxAttempts attempt : Nat} {status : Status} :
    judge maxAttempts attempt status = .reschedulable ↔
      (∃ resource, status = .exhausted resource) ∧ attempt + 1 < maxAttempts := by
  cases status with
  | exhausted resource =>
    by_cases hlt : attempt + 1 < maxAttempts
    · simp [judge, hlt]
    · simp [judge, hlt]
  | finished => simp [judge]
  | failed => simp [judge]
  | crashed => simp [judge]

theorem addSolution_fst (g : Governor) (id : TaskId) (status : Status) :
    (g.addSolution id status).1 = judge g.policy.maxAttempts (g.recordOf id).attempt status := rfl

/-- The record after a status: a verdict that is final marks it, the other one leaves the mark. -/
theorem exists_record?_solution (g : Governor) (id : TaskId) (status : Status) :
    ∃ r, (g.addSolution id status).2.record? id = some r ∧
      r.attempt = (g.recordOf id).attempt ∧ r.history.getLast? = some status ∧
      r.final.isSome = ((g.recordOf id).final.isSome ||
        decide ((g.addSolution id status).1 ≠ .reschedulable)) := by
  refine ⟨_, record?_put_self .., rfl, List.getLast?_concat, ?_⟩
  rw [addSolution_fst]
  cases judge g.policy.maxAttempts (g.recordOf id).attempt status with
  | reschedulable => simp
  | final s => simp

section
variable {escalate : Limits → Resource → Limits} {g : Governor} {id : TaskId}

/-- When an attempt is granted, and what becomes of the record then and otherwise. -/
theorem rescheduleBy_cases (escalate : Limits → Resource → Limits) {r : TaskRecord}
    (h : g.record? id = some r) :
    (∃ limits, r.final = none ∧ (∃ resource, r.history.getLast? = some (.exhausted resource)) ∧
        r.attempt + 1 < g.policy.maxAttempts ∧
        (g.rescheduleBy escalate id).1 = some (r.attempt + 1) ∧
        (g.rescheduleBy escalate id).2.record? id =
          some { r with attempt := r.attempt + 1, limits }) ∨
      (∃ final : Option FinalStatus, final.isSome = true ∧
        (r.final.isSome = true ∨ (¬ ∃ resource, r.history.getLast? = some (.exhausted resource)) ∨
          g.policy.maxAttempts ≤ r.attempt + 1) ∧
        (g.rescheduleBy escalate id).1 = none ∧
        (g.rescheduleBy escalate id).2.record? id = some { r with final }) := by
  rw [rescheduleBy, h]
  by_cases hfinal : r.final.isSome = true
  · simp only [hfinal, if_true]
    exact .inr ⟨r.final, hfinal, .inl trivial, trivial, h⟩
  · simp only [hfinal, Bool.false_eq_true, if_false]
    by_cases hlast : ∃ resource, r.history.getLast? = some (.exhausted resource)
    · obtain ⟨resource, hlast⟩ := hlast
      rw [hlast]
      by_cases hleft : r.attempt + 1 < g.policy.maxAttempts
      · simp only [hleft, if_true]
        exact .inl ⟨_, by simpa using hfinal, ⟨resource, rfl⟩, trivial, trivial,
          record?_put_self ..⟩
      · simp only [hleft, if_false]
        exact .inr ⟨some .failed, rfl, .inr (.inr (Nat.not_lt.1 hleft)), trivial,
          record?_put_self ..⟩
    · refine .inr ⟨some .failed, rfl, .inr (.inl hlast), ?_⟩
      split
      · next resource hresource => exact (hlast ⟨resource, hresource⟩).elim
      · exact ⟨rfl, record?_put_self ..⟩

theorem rescheduleBy_of_none (h : g.record? id = none) :
    g.rescheduleBy escalate id = (none, g) := by
  rw [rescheduleBy, h]

end

/-! ### Ledger and record -/

structure Entry (p : Escalation) (l : Ledger) (r : TaskRecord) : Prop where
  attempt : r.attempt = l.granted
  settled : r.final.isSome = l.settled
  unheard : l.verdict = none → r.history = []
  ended : ∀ status, l.verdict = some (.final status) → l.settled = true
  last : l.verdict = some .reschedulable →
    ∃ resource, r.history.getLast? = some (.exhausted resource)
  /-- When the verdict was given there was an attempt left. -/
  left : l.verdict = some .reschedulable → l.granted + 1 < p.maxAttempts + l.since

structure Agrees (p : Escalation) (id : TaskId) (l : Ledger) (g : Governor) : Prop where
  policy : g.policy = p
  blank : g.record? id = none → l = .blank
  known : ∀ r, g.record? id = some r → l.known = true
  entry : ∀ r, g.record? id = some r → Entry p l r

section
variable {p : Escalation} {id : TaskId} {l : Ledger} {g : Governor}

theorem entry_blank (p : Escalation) (limits : Limits) : Entry p .blank ⟨0, limits, [], none⟩ where
  attempt := rfl
  settled := rfl
  unheard _ := rfl
  ended _ h := by cases h
  last h := by cases h
  left h := by cases h

theorem Agrees.recordOf (h : Agrees p id l g) : Entry p l (g.recordOf id) := by
  cases hr : g.record? id with
  | none =>
    rw [g.recordOf_of_none id hr, h.blank hr]
    exact entry_blank p _
  | some r =>
    rw [g.recordOf_of_some id hr]
    exact h.entry r hr

/-- Whoever has a record now has it because of the last call. -/
theorem Agrees.of_record {g' : Governor} {r : TaskRecord} (policy : g'.policy = p)
    (record : g'.record? id = some r) (known : l.known = true) (entry : Entry p l r) :
    Agrees p id l g' where
  policy := policy
  blank h := by
    rw [record] at h
    cases h
  known _ _ := known
  entry r' h := by
    rw [record] at h
    cases h
    exact entry

theorem Agrees.limits (h : Agrees p id l g) :
    Agrees p id { l with known := true } (g.limitsFor id).2 := by
  refine .of_record h.policy (record?_limitsFor_self g id) rfl ?_
  have hentry := h.recordOf
  exact ⟨hentry.attempt, hentry.settled, hentry.unheard, hentry.ended, hentry.last, hentry.left⟩

theorem Agrees.solution (h : Agrees p id l g) (status : Status) :
    Agrees p id (l.hear (some (g.addSolution id status).1) none (.solution id status))
      (g.addSolution id status).2 := by
  obtain ⟨r, hrecord, hattempt, hlast, hfinal⟩ := exists_record?_solution g id status
  have hentry := h.recordOf
  have hjudge := @judge_eq_reschedulable_iff p.maxAttempts l.granted status
  have hverdict : (g.addSolution id status).1 = judge p.maxAttempts l.granted status := by
    rw [addSolution_fst, h.policy, hentry.attempt]
  refine .of_record h.policy hrecord rfl ⟨?_, ?_, ?_, ?_, ?_, ?_⟩
  · rw [hattempt]
    exact hentry.attempt
  · rw [hfinal, hentry.settled]
    simp [Ledger.hear]
  · intro hnone
    cases hnone
  · intro s hs
    have hne : (g.addSolution id status).1 ≠ .reschedulable := by
      rw [Option.some.inj hs]
      intro heq
      cases heq
    simp [Ledger.hear, hne]
  · intro hs
    obtain ⟨⟨resource, rfl⟩, _⟩ := hjudge.1 (hverdict ▸ Option.some.inj hs)
    exact ⟨resource, hlast⟩
  · intro hs
    exact (hjudge.1 (hverdict ▸ Option.some.inj hs)).2

theorem Agrees.reschedule (h : Agrees p id l g) (scaling : Limits → Resource → Nat) :
    Agrees p id (l.hear none ((Call.reschedule id scaling).grant? g) (.reschedule id scaling))
      ((Call.reschedule id scaling).next g) := by
  have helsewhere := ((Call.reschedule id scaling).effect g).elsewhere
  have hpolicy := helsewhere.policy.trans h.policy
  cases hr : g.record? id with
  | none =>
    have hnone : g.rescheduleBy (g.policy.escalateBy scaling) id = (none, g) :=
      rescheduleBy_of_none hr
    have hblank := h.blank hr
    subst hblank
    rw [Call.next, Call.grant?, hnone]
    exact h
  | some r =>
    have hentry := h.entry r hr
    have hknown := h.known r hr
    obtain ⟨limits, hopen, _, _, hgrant, hrecord⟩ | ⟨final, hfinal, _, hgrant, hrecord⟩ :=
      rescheduleBy_cases (g.policy.escalateBy scaling) hr
    · have hledger : l.hear none ((Call.reschedule id scaling).grant? g) (.reschedule id scaling) =
          { l with granted := l.granted + 1, since := l.since + 1 } := by
        rw [Call.grant?, hgrant]
        rfl
      rw [hledger]
      refine .of_record hpolicy hrecord hknown ⟨?_, hentry.settled, hentry.unheard, hentry.ended,
        hentry.last, fun hs => ?_⟩
      · exact congrArg (· + 1) hentry.attempt
      · have hleft := hentry.left hs
        show l.granted + 1 + 1 < p.maxAttempts + (l.since + 1)
        omega
    · have hledger : l.hear none ((Call.reschedule id scaling).grant? g) (.reschedule id scaling) =
          { l with settled := true } := by
        rw [Call.grant?, hgrant]
        simp [Ledger.hear, hknown]
      rw [hledger]
      exact .of_record hpolicy hrecord hknown ⟨hentry.attempt, hfinal, hentry.unheard,
        fun _ _ => rfl, hentry.last, hentry.left⟩

theorem Agrees.forget (h : Agrees p id l g) : Agrees p id .blank (g.forget id) where
  policy := h.policy
  blank _ := rfl
  known r hr := by
    rw [record?_forget_self] at hr
    cases hr
  entry r hr := by
    rw [record?_forget_self] at hr
    cases hr

/-- Calls on other tasks are not heard, and they change nothing. -/
theorem Agrees.elsewhere (h : Agrees p id l g) {c : Call} (other : c.task ≠ id) :
    Agrees p id l (c.next g) := by
  have helsewhere := (c.effect g).elsewhere
  have hrecord := helsewhere.record? id (Ne.symm other)
  refine ⟨helsewhere.policy.trans h.policy, ?_, ?_, ?_⟩
  · rw [hrecord]
    exact h.blank
  · rw [hrecord]
    exact h.known
  · rw [hrecord]
    exact h.entry

theorem Agrees.step (h : Agrees p id l g) (c : Call) :
    Agrees p id (l.step id g c) (c.next g) := by
  unfold Ledger.step
  split
  · next htask =>
    cases c with
    | limits i =>
      cases htask
      exact h.limits
    | solution i status =>
      cases htask
      exact h.solution status
    | reschedule i scaling =>
      cases htask
      exact h.reschedule scaling
    | forget i =>
      cases htask
      exact h.forget
  · next htask => exact h.elsewhere htask

theorem Agrees.follow (h : Agrees p id l g) (cs : List Call) :
    Agrees p id (l.follow id g cs) (cs.foldl Call.next g) := by
  induction cs generalizing l g with
  | nil => exact h
  | cons c cs ih => exact ih (h.step c)

theorem agrees_afterCalls (p : Escalation) (id : TaskId) (cs : List Call) :
    Agrees p id (ledger p id cs) (afterCalls p cs) := by
  have hstart : Agrees p id .blank (ofPolicy p) := by
    refine ⟨rfl, fun _ => rfl, fun r hr => ?_, fun r hr => ?_⟩
    · cases hr
    · cases hr
  exact hstart.follow cs

/-! ### What the ledger decides -/

theorem Agrees.verdict_iff (h : Agrees p id l g) (status : Status) :
    (g.addSolution id status).1 = .reschedulable ↔
      (∃ resource, status = .exhausted resource) ∧ l.granted + 1 < p.maxAttempts := by
  rw [addSolution_fst, judge_eq_reschedulable_iff, h.policy, h.recordOf.attempt]

theorem Agrees.grant_iff (h : Agrees p id l g) (attempt : Nat) :
    (g.reschedule id).1 = some attempt ↔
      l.verdict = some .reschedulable ∧ l.settled = false ∧ attempt = l.granted + 1 ∧
        attempt < p.maxAttempts := by
  show (g.rescheduleBy g.policy.escalate id).1 = some attempt ↔ _
  cases hr : g.record? id with
  | none =>
    rw [rescheduleBy_of_none hr, h.blank hr]
    constructor
    · intro heq
      cases heq
    · rintro ⟨heq, _⟩
      cases heq
  | some r =>
    have hentry := h.entry r hr
    obtain ⟨limits, hopen, ⟨resource, hlast⟩, hleft, hgrant, _⟩ | ⟨final, _, hwhy, hgrant, _⟩ :=
      rescheduleBy_cases g.policy.escalate hr
    · have hsettled : l.settled = false := by
        rw [← hentry.settled, hopen]
        rfl
      have hverdict : l.verdict = some .reschedulable := by
        cases hv : l.verdict with
        | none =>
          rw [hentry.unheard hv] at hlast
          cases hlast
        | some verdict =>
          cases verdict with
          | reschedulable => rfl
          | final status =>
            rw [hentry.ended status hv] at hsettled
            cases hsettled
      rw [hgrant, hentry.attempt, Option.some.injEq]
      rw [h.policy, hentry.attempt] at hleft
      constructor
      · rintro rfl
        exact ⟨hverdict, hsettled, rfl, hleft⟩
      · rintro ⟨_, _, rfl, _⟩
        rfl
    · rw [hgrant]
      constructor
      · intro heq
        cases heq
      · rintro ⟨hverdict, hsettled, rfl, hleft⟩
        exfalso
        rw [h.policy, hentry.attempt] at hwhy
        rcases hwhy with hfinal | hlast | hspent
        · rw [hentry.settled, hsettled] at hfinal
          cases hfinal
        · exact hlast (hentry.last hverdict)
        · omega

end

/-! ### Until the task is forgotten -/

section
variable {id : TaskId}

/-- What is settled stays so, and the number of attempts does not fall. -/
theorem Ledger.follow_mono (cs : List Call) (kept : Call.forget id ∉ cs) (l : Ledger)
    (g : Governor) : (l.settled = true → (l.follow id g cs).settled = true) ∧
      l.granted ≤ (l.follow id g cs).granted := by
  induction cs generalizing l g with
  | nil => exact ⟨fun h => h, Nat.le_refl _⟩
  | cons c cs ih =>
    rw [List.mem_cons, not_or] at kept
    have hstep : (l.settled = true → (l.step id g c).settled = true) ∧
        l.granted ≤ (l.step id g c).granted := by
      unfold Ledger.step
      split
      · next htask =>
        cases c with
        | limits i => exact ⟨fun h => h, Nat.le_refl _⟩
        | solution i status => exact ⟨fun h => by simp [Ledger.hear, h], Nat.le_refl _⟩
        | reschedule i scaling =>
          simp only [Ledger.hear]
          split
          · exact ⟨fun h => h, Nat.le_succ _⟩
          · exact ⟨fun h => by simp [h], Nat.le_refl _⟩
        | forget i =>
          cases htask
          exact (kept.1 rfl).elim
      · exact ⟨fun h => h, Nat.le_refl _⟩
    obtain ⟨hsettled, hgranted⟩ := ih kept.2 (l.step id g c) (c.next g)
    exact ⟨fun h => hsettled (hstep.1 h), Nat.le_trans hstep.2 hgranted⟩

theorem ledger_append (p : Escalation) (id : TaskId) (before after : List Call) :
    ledger p id (before ++ after) =
      (ledger p id before).follow id (afterCalls p before) after := by
  have happend : ∀ (l : Ledger) (g : Governor), l.follow id g (before ++ after) =
      (l.follow id g before).follow id (before.foldl Call.next g) after := by
    induction before with
    | nil => exact fun l g => rfl
    | cons c before ih => exact fun l g => ih (l.step id g c) (c.next g)
  exact happend .blank (ofPolicy p)

end

/-! ### All together -/

/-- A further attempt is granted for this verdict, and for the first time. -/
def Ledger.Due (l : Ledger) : Prop := l.verdict = some .reschedulable ∧ l.since = 0

/-- What the governor answers after these calls, and how far it is one grant for a verdict. -/
structure Granting (p : Escalation) (id : TaskId) (cs : List Call) : Prop where
  /-- A verdict depends on the status and on the number of attempts. -/
  verdict_iff : ∀ status, ((afterCalls p cs).addSolution id status).1 = .reschedulable ↔
    (∃ resource, status = .exhausted resource) ∧ (ledger p id cs).granted + 1 < p.maxAttempts
  grant_iff : ∀ attempt, ((afterCalls p cs).reschedule id).1 = some attempt ↔
    (ledger p id cs).verdict = some .reschedulable ∧ (ledger p id cs).settled = false ∧
      attempt = (ledger p id cs).granted + 1 ∧ attempt < p.maxAttempts
  /-- Whoever asks once for a verdict, on a task that is not settled, is granted an attempt exactly
  if the verdict allows it. -/
  granted_once : (ledger p id cs).settled = false → (ledger p id cs).since = 0 →
    ((∃ attempt, ((afterCalls p cs).reschedule id).1 = some attempt) ↔
      (ledger p id cs).verdict = some .reschedulable)
  /-- A grant is due exactly if it is given, unless the task is settled although its verdict allows
  an attempt, or an attempt is left after the grant for the verdict. -/
  due_iff : ((∃ attempt, ((afterCalls p cs).reschedule id).1 = some attempt) ↔
      (ledger p id cs).Due) ↔
    ((ledger p id cs).verdict = some .reschedulable →
      ((ledger p id cs).since = 0 → (ledger p id cs).settled = false) ∧
      ((ledger p id cs).since ≠ 0 → (ledger p id cs).settled = true ∨
        p.maxAttempts ≤ (ledger p id cs).granted + 1))
  /-- A task that is settled is granted nothing until it is forgotten. -/
  refused : ∀ after, .forget id ∉ after → (ledger p id cs).settled = true →
    ((afterCalls p (cs ++ after)).reschedule id).1 = none
  /-- Once no attempt is left, all verdicts are final until the task is forgotten. -/
  spent : ∀ after, .forget id ∉ after → p.maxAttempts ≤ (ledger p id cs).granted + 1 →
    ∀ status, ((afterCalls p (cs ++ after)).addSolution id status).1 ≠ .reschedulable

theorem granting_of_calls (p : Escalation) (id : TaskId) (cs : List Call) : Granting p id cs := by
  have hagrees := agrees_afterCalls p id cs
  have hgrant : (∃ attempt, ((afterCalls p cs).reschedule id).1 = some attempt) ↔
      (ledger p id cs).verdict = some .reschedulable ∧ (ledger p id cs).settled = false ∧
        (ledger p id cs).granted + 1 < p.maxAttempts := by
    simp only [hagrees.grant_iff]
    constructor
    · rintro ⟨_, hverdict, hsettled, rfl, hleft⟩
      exact ⟨hverdict, hsettled, hleft⟩
    · rintro ⟨hverdict, hsettled, hleft⟩
      exact ⟨_, hverdict, hsettled, rfl, hleft⟩
  have hleft : (ledger p id cs).verdict = some .reschedulable →
      (ledger p id cs).granted + 1 < p.maxAttempts + (ledger p id cs).since := by
    intro hverdict
    cases hr : (afterCalls p cs).record? id with
    | none =>
      rw [hagrees.blank hr] at hverdict
      cases hverdict
    | some r => exact (hagrees.entry r hr).left hverdict
  refine ⟨hagrees.verdict_iff, hagrees.grant_iff, ?_, ?_, ?_, ?_⟩
  · intro hsettled hsince
    rw [hgrant]
    constructor
    · exact fun h => h.1
    · intro hverdict
      have hbefore := hleft hverdict
      exact ⟨hverdict, hsettled, by omega⟩
  · rw [hgrant, Ledger.Due]
    by_cases hverdict : (ledger p id cs).verdict = some .reschedulable
    · have hbefore := hleft hverdict
      cases hsettled : (ledger p id cs).settled with
      | false =>
        simp only [hverdict, true_and, true_implies, implies_true, Bool.false_eq_true, false_or]
        omega
      | true =>
        simp [hverdict]
    · simp [hverdict]
  · intro after hkept hsettled
    have hafter := agrees_afterCalls p id (cs ++ after)
    rw [ledger_append] at hafter
    have hstays := (Ledger.follow_mono after hkept _ (afterCalls p cs)).1 hsettled
    rw [Option.eq_none_iff_forall_ne_some]
    intro attempt heq
    obtain ⟨_, hopen, _⟩ := (hafter.grant_iff attempt).1 heq
    rw [hstays] at hopen
    cases hopen
  · intro after hkept hspent status heq
    have hafter := agrees_afterCalls p id (cs ++ after)
    rw [ledger_append] at hafter
    have hmore := (Ledger.follow_mono after hkept (ledger p id cs) (afterCalls p cs)).2
    have hlt := ((hafter.verdict_iff status).1 heq).2
    omega

/-- Two attempts are granted for one verdict, and a finished task gets a verdict that allows one. -/
theorem grants_exceed_verdicts :
    let p : Escalation := ⟨.standard, .standardCeiling, 2, 1.5, 3⟩
    let t : TaskId := ⟨"t", "c", "single", "t"⟩
    let exhausted := (ofPolicy p).addSolution t (.exhausted .memory)
    let granted := exhausted.2.reschedule t
    let finished := (ofPolicy p).addSolution t .finished
    let late := finished.2.addSolution t (.exhausted .memory)
    exhausted.1 = .reschedulable ∧ granted.1 = some 1 ∧ (granted.2.reschedule t).1 = some 2 ∧
      finished.1 = .final .finished ∧ late.1 = .reschedulable ∧ (late.2.reschedule t).1 = none := by
  decide +kernel

end Governor
end TaskGen
