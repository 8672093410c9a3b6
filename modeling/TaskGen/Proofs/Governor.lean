import TaskGen.Governor
import TaskGen.Proofs.Escalation
import TaskGen.Proofs.Pairs

/-!
What is known about a task after each operation on the attempts.  An operation on one task
leaves the record of every other task as it was.
-/

namespace TaskGen

def Escalation.further? (p : Escalation) (attempt : Nat) (limits : Limits) :
    Status → Option Limits
  | .exhausted resource =>
    if attempt + 1 < p.maxAttempts then some (p.escalate limits resource) else none
  | _ => none

theorem Escalation.lt_of_further? {p : Escalation} {attempt : Nat} {limits next : Limits}
    {status : Status} (h : p.further? attempt limits status = some next) :
    attempt + 1 < p.maxAttempts := by
  cases status with
  | exhausted resource =>
    by_cases hlt : attempt + 1 < p.maxAttempts
    · exact hlt
    · rw [further?, if_neg hlt] at h
      cases h
  | finished => cases h
  | failed => cases h
  | crashed => cases h

theorem Escalation.exhausted_of_further? {p : Escalation} {attempt : Nat} {limits next : Limits}
    {status : Status} (h : p.further? attempt limits status = some next) :
    ∃ resource, status = .exhausted resource ∧ next = p.escalate limits resource := by
  have hlt := p.lt_of_further? h
  cases status with
  | exhausted resource =>
    rw [further?, if_pos hlt] at h
    exact ⟨resource, rfl, (Option.some.inj h).symm⟩
  | finished => cases h
  | failed => cases h
  | crashed => cases h

def Status.verdict : Status → FinalStatus
  | .finished => .finished
  | _ => .failed

namespace Governor

variable (g : Governor) (id : TaskId)

@[simp] theorem record?_put_self (r : TaskRecord) : (g.put id r).record? id = some r := by
  simp [record?, put]

theorem record?_put_of_ne {id' : TaskId} (h : id' ≠ id) (r : TaskRecord) :
    (g.put id r).record? id' = g.record? id' := by
  have hb : (id' == id) = false := by simpa using h
  rw [record?, put, List.lookup_cons, hb]
  exact Pairs.lookup_filter_of_ne h g.records

@[simp] theorem record?_forget_self : (g.forget id).record? id = none :=
  Pairs.lookup_filter_self g.records id

theorem record?_forget_of_ne {id' : TaskId} (h : id' ≠ id) :
    (g.forget id).record? id' = g.record? id' :=
  Pairs.lookup_filter_of_ne h g.records

theorem recordOf_of_some {r : TaskRecord} (h : g.record? id = some r) : g.recordOf id = r := by
  rw [recordOf, h, Option.getD_some]

/-- Asking for limits changes nothing that is known about any task. -/
theorem recordOf_limitsFor (id' : TaskId) : (g.limitsFor id).2.recordOf id' = g.recordOf id' := by
  by_cases h : id' = id
  · subst h
    exact recordOf_of_some _ _ (record?_put_self ..)
  · unfold recordOf
    rw [limitsFor, record?_put_of_ne g id h]
    rfl

@[simp] theorem policy_limitsFor : (g.limitsFor id).2.policy = g.policy := rfl

theorem record?_limitsFor_of_ne {id' : TaskId} (h : id' ≠ id) :
    (g.limitsFor id).2.record? id' = g.record? id' := g.record?_put_of_ne id h _

theorem recordOf_of_none (h : g.record? id = none) :
    g.recordOf id = ⟨0, g.policy.defaults, [], none⟩ := by
  rw [recordOf, h, Option.getD_none]
  rfl

theorem record?_limitsFor_self : (g.limitsFor id).2.record? id = some (g.recordOf id) :=
  record?_put_self ..

/-! ### Changes to one task -/

/-- The second governor has the same policy, and it knows the same of all other tasks. -/
structure Elsewhere (id : TaskId) (g g' : Governor) : Prop where
  policy : g'.policy = g.policy
  record? : ∀ i, i ≠ id → g'.record? i = g.record? i

variable {g : Governor} {id : TaskId}

theorem Elsewhere.trans {g' g'' : Governor} (h : Elsewhere id g g') (h' : Elsewhere id g' g'') :
    Elsewhere id g g'' where
  policy := h'.policy.trans h.policy
  record? i hi := (h'.record? i hi).trans (h.record? i hi)

theorem elsewhere_put (g : Governor) (id : TaskId) (r : TaskRecord) :
    Elsewhere id g (g.put id r) :=
  ⟨rfl, fun _ hi => g.record?_put_of_ne id hi r⟩

/-! ### An attempt -/

theorem judge_of_some {p : Escalation} {attempt : Nat} {limits next : Limits} {status : Status}
    (h : p.further? attempt limits status = some next) :
    judge p.maxAttempts attempt status = .reschedulable := by
  have hlt := Escalation.lt_of_further? h
  cases status with
  | exhausted resource => exact if_pos hlt
  | finished => cases h
  | failed => cases h
  | crashed => cases h

theorem judge_of_none {p : Escalation} {attempt : Nat} {limits : Limits} {status : Status}
    (h : p.further? attempt limits status = none) :
    judge p.maxAttempts attempt status = .final status.verdict := by
  cases status with
  | exhausted resource =>
    by_cases hlt : attempt + 1 < p.maxAttempts
    · rw [Escalation.further?, if_pos hlt] at h
      cases h
    · exact if_neg hlt
  | finished => rfl
  | failed => rfl
  | crashed => rfl

theorem addSolution_of_record {r : TaskRecord} (h : g.record? id = some r) (status : Status) :
    (g.addSolution id status).1 = judge g.policy.maxAttempts r.attempt status := by
  rw [addSolution, g.recordOf_of_some id h]

theorem elsewhere_addSolution (g : Governor) (id : TaskId) (status : Status) :
    Elsewhere id g (g.addSolution id status).2 := elsewhere_put ..

/-- The status is the last one of the history. -/
theorem record?_addSolution {attempt : Nat} {limits next : Limits} {history : List Status}
    (h : g.record? id = some ⟨attempt, limits, history, none⟩) {status : Status}
    (more : g.policy.further? attempt limits status = some next) :
    (g.addSolution id status).2.record? id =
      some ⟨attempt, limits, history ++ [status], none⟩ := by
  have hjudge := judge_of_some more
  rw [addSolution, g.recordOf_of_some id h]
  simp only [hjudge, record?_put_self]

/-- A further attempt is granted if there is one, with the limits that it is due. -/
theorem reschedule_of_record {attempt : Nat} {limits next : Limits} {history : List Status}
    {status : Status} (h : g.record? id = some ⟨attempt, limits, history ++ [status], none⟩)
    (more : g.policy.further? attempt limits status = some next) :
    (g.reschedule id).1 = some (attempt + 1) ∧
      (g.reschedule id).2.record? id = some ⟨attempt + 1, next, history ++ [status], none⟩ ∧
      Elsewhere id g (g.reschedule id).2 := by
  have hlt := Escalation.lt_of_further? more
  cases status with
  | exhausted resource =>
    rw [Escalation.further?, if_pos hlt] at more
    have hnext : g.policy.escalate limits resource = next := Option.some.inj more
    have hresult : g.reschedule id =
        (some (attempt + 1),
          { g.put id ⟨attempt + 1, next, history ++ [.exhausted resource], none⟩ with
            rescheduled := g.rescheduled + 1 }) := by
      rw [reschedule, h]
      simp [hlt, hnext]
    rw [hresult]
    exact ⟨rfl, record?_put_self .., rfl, fun i hi => g.record?_put_of_ne id hi _⟩
  | finished => cases more
  | failed => cases more
  | crashed => cases more

end Governor
end TaskGen
