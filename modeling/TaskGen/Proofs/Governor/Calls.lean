import TaskGen.Proofs.Governor

/-!
Any use of the governor: every call on any task, in any order.  Nothing is relied on that the
scaling of limits computes, so each rescheduling may scale in its own way.

Main statement: `orderly_of_calls`.
-/

namespace TaskGen

/-! ### Calls -/

namespace Governor

def rescheduleBy (escalate : Limits → Resource → Limits) (g : Governor) (id : TaskId) :
    Option Nat × Governor :=
  match g.record? id with
  | none => (none, g)
  | some r =>
    if r.final.isSome then (none, g)
    else
      match r.history.getLast? with
      | some (.exhausted resource) =>
        if r.attempt + 1 < g.policy.maxAttempts then
          let next := { r with attempt := r.attempt + 1, limits := escalate r.limits resource }
          (some next.attempt, { g.put id next with rescheduled := g.rescheduled + 1 })
        else (none, g.put id { r with final := some .failed })
      | _ => (none, g.put id { r with final := some .failed })

inductive Call where
  | limits (id : TaskId)
  | solution (id : TaskId) (status : Status)
  | reschedule (id : TaskId) (scaling : Limits → Resource → Nat)
  | forget (id : TaskId)

namespace Call

def task : Call → TaskId
  | .limits id | .solution id _ | .reschedule id _ | .forget id => id

def next (g : Governor) : Call → Governor
  | .limits id => (g.limitsFor id).2
  | .solution id status => (g.addSolution id status).2
  | .reschedule id scaling => (g.rescheduleBy (g.policy.escalateBy scaling) id).2
  | .forget id => g.forget id

def grant? (g : Governor) : Call → Option Nat
  | .reschedule id scaling => (g.rescheduleBy (g.policy.escalateBy scaling) id).1
  | _ => none

end Call

theorem reschedule_eq (g : Governor) (id : TaskId) :
    g.reschedule id = ((Call.reschedule id g.policy.scaled).grant? g,
      (Call.reschedule id g.policy.scaled).next g) := by
  simp only [Call.grant?, Call.next, Escalation.escalateBy_scaled]
  rfl

/-- What a call can do, with the attempt that it grants.  Every other call that leaves the record
of its task leaves the attempt and the limits in it as they are, or as they are in a new record. -/
inductive Call.Effect (g : Governor) : Call → Option Nat → Governor → Prop where
  | idle {id : TaskId} {scaling : Limits → Resource → Nat} : Effect g (.reschedule id scaling) none g
  | noted {c : Call} {r : TaskRecord} (attempt : r.attempt = (g.recordOf c.task).attempt)
      (limits : r.limits = (g.recordOf c.task).limits)
      (history : (g.recordOf c.task).history <+: r.history) : Effect g c none (g.put c.task r)
  | granted {id : TaskId} {scaling : Limits → Resource → Nat} {r : TaskRecord}
      {resource : Resource} (known : g.record? id = some r) (unsettled : r.final = none)
      (last : r.history.getLast? = some (.exhausted resource))
      (left : r.attempt + 1 < g.policy.maxAttempts) :
      Effect g (.reschedule id scaling) (some (r.attempt + 1))
        { g.put id { r with
            attempt := r.attempt + 1, limits := g.policy.escalateBy scaling r.limits resource } with
          rescheduled := g.rescheduled + 1 }
  | forgotten {id : TaskId} : Effect g (.forget id) none (g.forget id)

theorem Call.effect_reschedule (g : Governor) (id : TaskId) (scaling : Limits → Resource → Nat)
    {grant : Option Nat} {g' : Governor}
    (h : g.rescheduleBy (g.policy.escalateBy scaling) id = (grant, g')) :
    Effect g (.reschedule id scaling) grant g' := by
  have hrefused : ∀ r, g.record? id = some r →
      Effect g (.reschedule id scaling) none (g.put id { r with final := some .failed }) := by
    intro r hr
    have hrecord : g.recordOf (Call.reschedule id scaling).task = r := g.recordOf_of_some id hr
    have hhistory := congrArg TaskRecord.history hrecord
    refine .noted ?_ ?_ ?_
    · rw [hrecord]
    · rw [hrecord]
    · exact hhistory ▸ List.prefix_rfl
  unfold rescheduleBy at h
  split at h
  · cases h
    exact .idle
  · next r hr =>
    split at h
    · cases h
      exact .idle
    · next hfinal =>
      split at h
      · next resource hlast =>
        split at h
        · next hleft =>
          cases h
          exact .granted hr (by simpa using hfinal) hlast hleft
        · cases h
          exact hrefused r hr
      · cases h
        exact hrefused r hr

theorem Call.effect (g : Governor) (c : Call) : c.Effect g (c.grant? g) (c.next g) := by
  cases c with
  | limits id => exact .noted rfl rfl (List.prefix_refl _)
  | solution id status => exact .noted rfl rfl (List.prefix_append _ _)
  | reschedule id scaling => exact effect_reschedule g id scaling rfl
  | forget id => exact .forgotten

/-! ### What one call keeps -/

end Governor

structure TaskRecord.Sound (p : Escalation) (r : TaskRecord) : Prop where
  attempt : r.attempt = 0 ∨ r.attempt < p.maxAttempts
  above : r.limits.dominates p.defaults = true
  below : p.ceiling.dominates r.limits = true

namespace Governor

structure Sound (p : Escalation) (g : Governor) : Prop where
  policy : g.policy = p
  record : ∀ id r, g.record? id = some r → r.Sound p

variable {p : Escalation} {g g' : Governor} {c : Call} {grant : Option Nat}

theorem sound_fresh (dominated : p.ceiling.dominates p.defaults = true) :
    TaskRecord.Sound p ⟨0, p.defaults, [], none⟩ :=
  ⟨.inl rfl, Limits.dominates_refl _, dominated⟩

/-- Also a record that is only now made is sound. -/
theorem Sound.recordOf (h : g.Sound p) (dominated : p.ceiling.dominates p.defaults = true)
    (id : TaskId) : (g.recordOf id).Sound p := by
  cases hr : g.record? id with
  | none =>
    rw [g.recordOf_of_none id hr, h.policy]
    exact sound_fresh dominated
  | some r =>
    rw [g.recordOf_of_some id hr]
    exact h.record id r hr

theorem Sound.put (h : g.Sound p) (id : TaskId) {r : TaskRecord} (sound : r.Sound p) :
    (g.put id r).Sound p := by
  refine ⟨h.policy, fun id' r' hr' => ?_⟩
  by_cases hid : id' = id
  · rw [hid, record?_put_self] at hr'
    cases hr'
    exact sound
  · rw [g.record?_put_of_ne id hid] at hr'
    exact h.record id' r' hr'

theorem Sound.granted (h : g.Sound p) {id : TaskId} {r : TaskRecord}
    (known : g.record? id = some r) (left : r.attempt + 1 < g.policy.maxAttempts)
    (scaling : Limits → Resource → Nat) (resource : Resource) :
    TaskRecord.Sound p { r with
      attempt := r.attempt + 1, limits := g.policy.escalateBy scaling r.limits resource } := by
  have hr := h.record id r known
  rw [h.policy] at left ⊢
  have hgrown := Escalation.grownIn_escalateBy hr.below scaling resource
  exact ⟨.inr left, Limits.dominates_trans hgrown.dominates hr.above,
    Escalation.ceiling_dominates_escalateBy hr.below scaling resource⟩

theorem Call.Effect.sound (e : c.Effect g grant g') (h : g.Sound p)
    (dominated : p.ceiling.dominates p.defaults = true) : g'.Sound p := by
  cases e with
  | idle => exact h
  | noted attempt limits =>
    have hold := h.recordOf dominated c.task
    exact h.put c.task ⟨attempt ▸ hold.attempt, limits ▸ hold.above, limits ▸ hold.below⟩
  | @granted id scaling r resource known _ _ left =>
    have hput := h.put id (h.granted known left scaling resource)
    exact ⟨hput.policy, hput.record⟩
  | @forgotten id =>
    refine ⟨h.policy, fun id' r hr => ?_⟩
    by_cases hid : id' = id
    · rw [hid, record?_forget_self] at hr
      cases hr
    · rw [g.record?_forget_of_ne id hid] at hr
      exact h.record id' r hr

theorem Call.Effect.elsewhere (e : c.Effect g grant g') : Elsewhere c.task g g' := by
  cases e with
  | idle => exact ⟨rfl, fun _ _ => rfl⟩
  | noted => exact elsewhere_put ..
  | granted => exact ⟨rfl, fun _ hi => g.record?_put_of_ne _ hi _⟩
  | forgotten => exact ⟨rfl, fun _ hi => g.record?_forget_of_ne _ hi⟩

theorem Call.Effect.rescheduled (e : c.Effect g grant g') :
    g'.rescheduled = g.rescheduled + if grant.isSome then 1 else 0 := by
  cases e with
  | idle => rfl
  | noted => rfl
  | granted => rfl
  | forgotten => rfl

/-- A record that lives on has at least the limits, the attempt and the history that it had. -/
def LivesOn (id : TaskId) (r : TaskRecord) (g : Governor) : Prop :=
  ∃ r', g.record? id = some r' ∧ r'.limits.dominates r.limits = true ∧ r.attempt ≤ r'.attempt ∧
    r.history <+: r'.history

theorem Call.Effect.livesOn (e : c.Effect g grant g') (h : g.Sound p) {id : TaskId}
    {r : TaskRecord} (known : g.record? id = some r) (kept : c ≠ .forget id) :
    LivesOn id r g' := by
  by_cases hid : id = c.task
  · subst hid
    cases e with
    | idle => exact ⟨r, known, Limits.dominates_refl _, Nat.le_refl _, List.prefix_refl _⟩
    | @noted _ r' attempt limits history =>
      rw [g.recordOf_of_some _ known] at attempt limits history
      refine ⟨r', record?_put_self .., ?_, Nat.le_of_eq attempt.symm, history⟩
      rw [limits]
      exact Limits.dominates_refl _
    | @granted id scaling r' resource known' _ _ left =>
      cases known.symm.trans known'
      have hbelow := (h.record _ r known).below
      rw [← h.policy] at hbelow
      have hgrown := Escalation.grownIn_escalateBy hbelow scaling resource
      exact ⟨_, record?_put_self .., hgrown.dominates, Nat.le_succ _, List.prefix_refl _⟩
    | forgotten => exact absurd rfl kept
  · rw [← e.elsewhere.record? id hid] at known
    exact ⟨r, known, Limits.dominates_refl _, Nat.le_refl _, List.prefix_refl _⟩

/-- A further attempt is granted only after an attempt that ran out of something, and the record
changes in the attempt and in the limits of what was exhausted. -/
def Granted (g : Governor) (id : TaskId) (attempt : Nat) (g' : Governor) : Prop :=
  ∃ r next resource, g.record? id = some r ∧
    r.history.getLast? = some (.exhausted resource) ∧ attempt = r.attempt + 1 ∧
    attempt < g.policy.maxAttempts ∧ Limits.GrownIn resource r.limits next ∧
    g'.record? id = some { r with attempt, limits := next }

theorem Call.Effect.of_grant {attempt : Nat} (e : c.Effect g (some attempt) g') (h : g.Sound p) :
    Granted g c.task attempt g' := by
  cases e with
  | @granted id scaling r resource known _ last left =>
    have hbelow := (h.record id r known).below
    rw [← h.policy] at hbelow
    exact ⟨r, _, resource, known, last, rfl, left,
      Escalation.grownIn_escalateBy hbelow scaling resource, record?_put_self ..⟩

/-! ### Any number of calls -/

def afterCalls (p : Escalation) (cs : List Call) : Governor := cs.foldl Call.next (ofPolicy p)

def grants (g : Governor) : List Call → Nat
  | [] => 0
  | c :: cs => (if (c.grant? g).isSome then 1 else 0) + grants (c.next g) cs

theorem afterCalls_append (p : Escalation) (before after : List Call) :
    afterCalls p (before ++ after) = after.foldl Call.next (afterCalls p before) :=
  List.foldl_append

theorem sound_foldl (dominated : p.ceiling.dominates p.defaults = true) (cs : List Call)
    (h : g.Sound p) : (cs.foldl Call.next g).Sound p := by
  induction cs generalizing g with
  | nil => exact h
  | cons c cs ih => exact ih ((c.effect g).sound h dominated)

theorem sound_afterCalls (dominated : p.ceiling.dominates p.defaults = true) (cs : List Call) :
    (afterCalls p cs).Sound p :=
  sound_foldl dominated cs ⟨rfl, fun _ _ h => by cases h⟩

theorem livesOn_foldl (dominated : p.ceiling.dominates p.defaults = true) {id : TaskId}
    {r : TaskRecord} (cs : List Call) (h : g.Sound p) (kept : Call.forget id ∉ cs)
    (lives : LivesOn id r g) : LivesOn id r (cs.foldl Call.next g) := by
  induction cs generalizing g with
  | nil => exact lives
  | cons c cs ih =>
    obtain ⟨r', known, hlimits, hattempt, hhistory⟩ := lives
    rw [List.mem_cons, not_or] at kept
    have hstep := (c.effect g).livesOn h known fun heq => kept.1 heq.symm
    obtain ⟨r'', known', hlimits', hattempt', hhistory'⟩ := hstep
    refine ih ((c.effect g).sound h dominated) kept.2 ⟨r'', known', ?_, ?_, ?_⟩
    · exact Limits.dominates_trans hlimits' hlimits
    · omega
    · exact hhistory.trans hhistory'

theorem rescheduled_foldl (cs : List Call) (g : Governor) :
    (cs.foldl Call.next g).rescheduled = g.rescheduled + grants g cs := by
  induction cs generalizing g with
  | nil => rfl
  | cons c cs ih =>
    have hstep := (c.effect g).rescheduled
    show (cs.foldl Call.next (c.next g)).rescheduled = _
    rw [ih, grants]
    omega

structure Orderly (p : Escalation) (cs : List Call) : Prop where
  attempt : ∀ id r, (afterCalls p cs).record? id = some r →
    (r.attempt = 0 ∨ r.attempt < p.maxAttempts) ∧
      (p.maxAttempts < UInt32.size → r.attempt + 1 < UInt32.size)
  limits : ∀ id r, (afterCalls p cs).record? id = some r →
    r.limits.dominates p.defaults = true ∧ p.ceiling.dominates r.limits = true
  livesOn : ∀ before after, cs = before ++ after → ∀ id r,
    (afterCalls p before).record? id = some r → .forget id ∉ after →
      LivesOn id r (afterCalls p cs)
  granted : ∀ before c, (before ++ [c]) <+: cs → ∀ attempt,
    c.grant? (afterCalls p before) = some attempt →
      Granted (afterCalls p before) c.task attempt (afterCalls p (before ++ [c]))
  elsewhere : ∀ before c, (before ++ [c]) <+: cs →
    Elsewhere c.task (afterCalls p before) (afterCalls p (before ++ [c]))
  counted : (afterCalls p cs).rescheduled = grants (ofPolicy p) cs
  /-- The scaling by the factors of the policy is one of those that are allowed for. -/
  actual : ∀ id, (afterCalls p cs).reschedule id =
    ((Call.reschedule id p.scaled).grant? (afterCalls p cs),
      afterCalls p (cs ++ [.reschedule id p.scaled]))

/-- No order of calls on any tasks, and no scaling, brings the attempts out of order, as long as
the first attempts are within the ceiling. -/
theorem orderly_of_calls {p : Escalation} (dominated : p.ceiling.dominates p.defaults = true)
    (cs : List Call) : Orderly p cs where
  attempt id r hr := by
    have hattempt := ((sound_afterCalls dominated cs).record id r hr).attempt
    refine ⟨hattempt, fun hmax => ?_⟩
    have hsize : 1 < UInt32.size := by decide
    omega
  limits id r hr := by
    have hsound := (sound_afterCalls dominated cs).record id r hr
    exact ⟨hsound.above, hsound.below⟩
  livesOn before after hsplit id r hr hkept := by
    rw [hsplit, afterCalls_append]
    refine livesOn_foldl dominated after (sound_afterCalls dominated before) hkept ?_
    exact ⟨r, hr, Limits.dominates_refl _, Nat.le_refl _, List.prefix_refl _⟩
  granted before c _ attempt hgrant := by
    have heffect := c.effect (afterCalls p before)
    rw [hgrant] at heffect
    rw [afterCalls_append]
    exact heffect.of_grant (sound_afterCalls dominated before)
  elsewhere before c _ := by
    rw [afterCalls_append]
    exact (c.effect (afterCalls p before)).elsewhere
  counted := by
    have hcount := rescheduled_foldl cs (ofPolicy p)
    have hzero : (ofPolicy p).rescheduled = 0 := rfl
    rw [afterCalls]
    omega
  actual id := by
    have hpolicy := (sound_afterCalls dominated cs).policy
    rw [reschedule_eq, hpolicy, afterCalls_append]
    rfl

/-- One task runs out of memory and is tried again, another one is asked for too early. -/
theorem orderly_of_sample :
    let p : Escalation := ⟨.standard, .standardCeiling, 2, 1.5, 3⟩
    let a : TaskId := ⟨"f", "c", "m", "a"⟩
    let b : TaskId := ⟨"f", "c", "m", "b"⟩
    let cs : List Call := [.solution a (.exhausted .memory), .limits b, .reschedule a p.scaled,
      .reschedule b p.scaled, .forget b]
    p.ceiling.dominates p.defaults = true ∧ grants (ofPolicy p) cs = 1 ∧
      ((afterCalls p cs).record? a).map (·.limits.memory) = some 2000000000 ∧ Orderly p cs :=
  ⟨by decide, by decide +kernel, by decide +kernel, orderly_of_calls (by decide) _⟩

end Governor
end TaskGen
