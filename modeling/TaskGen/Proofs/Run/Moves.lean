import TaskGen.Proofs.Run.Custody

/-!
What the steps of the system do to the state of the loop.  An item is taken out and dealt with or
given up, the loop comes to its end, or items change their places.
-/

namespace TaskGen
namespace Run

open State

variable {r : Run} {s s' : State}

/-! ### Nothing left -/

theorem live_eq_zero {s : State} (hwaiting : s.waiting = 0) (hinFlight : s.inFlight = []) :
    s.live = 0 := by
  have hbacklog : s.backlog = [] := List.eq_nil_of_length_eq_zero (by
    unfold State.waiting at hwaiting
    omega)
  have hretries : s.retries = [] := List.eq_nil_of_length_eq_zero (by
    unfold State.waiting at hwaiting
    omega)
  rw [live, unadmitted, underWay, hbacklog, hretries, hinFlight]
  rfl

theorem isDone_iff (s : State) :
    s.isDone = true ↔ s.waiting = 0 ∧ s.inFlight = [] ∧ s.pendingAbstract = 0 := by
  simp [State.isDone, State.waiting, and_assoc]

theorem live_eq_zero_of_isDone {s : State} (done : s.isDone = true) : s.live = 0 := by
  obtain ⟨hwaiting, hinFlight, _⟩ := (isDone_iff s).1 done
  exact live_eq_zero hwaiting hinFlight

theorem finish_live (now : Duration) (s : State) : (finish now s).live = s.live := by
  obtain ⟨_, _, _, _, heq⟩ := finish_eq now s
  rw [heq]
  rfl

/-! ### The moves of the loop -/

/-- The states differ only in where the items are and in what is noted of the loop itself. -/
def Shift (s s' : State) : Prop :=
  ∃ backlog retries inFlight cancelling cancelled metrics, retries ⊆ s.retries ∧
    s' = { s with
      backlog, retries, inFlight, cancelling
      report := { s.report with cancelled, metrics } }

theorem Shift.governor_eq (shift : Shift s s') : s'.governor = s.governor := by
  obtain ⟨_, _, _, _, _, _, _, rfl⟩ := shift
  rfl

inductive Move (r : Run) (s : State) : Option Completion → State → Prop where
  | deal {c : Completion} {rest : State} (shift : Shift s rest)
      (live : s.live = c.item ::ₘ rest.live) : Move r s (some c) (r.deal c rest)
  | drop {item : WorkItem} {rest : State} (shift : Shift s rest)
      (live : s.live = item ::ₘ rest.live) : Move r s none (r.dropItem item rest)
  | finish (now : Duration) (idle : s.live = 0) : Move r s none (Run.finish now s)
  | shift {s' : State} (shift : Shift s s') (live : s'.live = s.live) : Move r s none s'

theorem retries_of_next? {s rest : State} {item : WorkItem} (h : s.next? = some (item, rest)) :
    rest.retries ⊆ s.retries := by
  unfold next? at h
  split at h
  · cases h
    exact List.Subset.refl _
  · next _ hfront =>
    cases h
    show _ ⊆ s.retries
    rw [hfront]
    exact List.subset_cons_self _ _
  · cases h

theorem Step.move {e : Event} {y y' : System} (step : Step r y e y') (sound : y.Sound r) :
    Move r y.state e.completion? y'.state := by
  cases hcompletion : e.completion? with
  | some c =>
    obtain ⟨hmem, now, hstate⟩ := step.state_of_completion sound hcompletion
    obtain ⟨metrics, heq⟩ := onCompletion_eq_deal r now sound.state hmem
    rw [hstate, heq]
    exact .deal ⟨_, _, _, _, _, _, List.Subset.refl _, rfl⟩ (sound.state.live_eq hmem)
  | none =>
    cases step with
    | @enter item rest now running room next =>
      obtain ⟨_, backlog, retries, hrest⟩ := unadmitted_of_next? next
      have hretries := retries_of_next? next
      rw [sound.admitNext_state next room now]
      refine .shift ?_ (enter_sound sound.state next now).2.2
      rw [hrest] at hretries ⊢
      exact ⟨_, _, _, _, _, _, hretries, rfl⟩
    | refuse now running first => cases hcompletion
    | handle now going settled first => cases hcompletion
    | strand now aborted silent left => cases hcompletion
    | drop aborted silent none next =>
      obtain ⟨_, backlog, retries, hrest⟩ := unadmitted_of_next? next
      have hretries := retries_of_next? next
      refine .drop ?_ (live_of_next? next)
      rw [hrest] at hretries ⊢
      exact ⟨_, _, _, _, _, _, hretries, rfl⟩
    | finish now running settled done => exact .finish now (live_eq_zero_of_isDone done)
    | conclude now aborted silent none empty => exact .finish now (live_eq_zero empty none)
    | _ => exact .shift ⟨_, _, _, _, _, _, List.Subset.refl _, rfl⟩ rfl

section
variable {fragments : FragmentSet} {workers : Nat} {es : List Event} {y : System}

/-- What the loop keeps whatever it does holds in every run. -/
theorem Trace.keeps_moves {P : State → Prop} (run : Trace r fragments workers es y)
    (wf : r.classes.WellFormed) (ordered : Dict.Ordered fragments)
    (distinct : ∀ c ∈ handled es, c.DistinctModels) (start : P (r.start fragments))
    (move : ∀ {s completion s'}, Move r s completion s' → P s → P s') : P y.state :=
  run.keeps (P := fun _ y => P y.state) distinct start
    fun run before _ next => move (next.move (run.sound wf ordered before))

/-- A run does not return before everything has come to its end. -/
theorem Trace.exists_finish (run : Trace r fragments workers es y)
    (returned : y.phase = .returned) :
    ∃ now s, s.live = 0 ∧ y.state = Run.finish now s := by
  induction run with
  | start => cases returned
  | @step es e y y' run next ih =>
    cases next with
    | receive waits free => exact ih returned
    | complete busy => exact ih returned
    | report done room => exact ih returned
    | lose => exact ih returned
    | handle now going settled first => exact absurd returned going
    | finish now running settled done => exact ⟨now, y.state, live_eq_zero_of_isDone done, rfl⟩
    | conclude now aborted silent none empty => exact ⟨now, y.state, live_eq_zero empty none, rfl⟩
    | enter now running => exact Phase.noConfusion (running.symm.trans returned)
    | observe running => exact Phase.noConfusion (running.symm.trans returned)
    | refuse now running => exact Phase.noConfusion (running.symm.trans returned)
    | cancel running => exact Phase.noConfusion returned
    | abort draining => exact Phase.noConfusion returned
    | strand now aborted => exact Phase.noConfusion (aborted.symm.trans returned)
    | drop aborted => exact Phase.noConfusion (aborted.symm.trans returned)

theorem Trace.live_of_returned (run : Trace r fragments workers es y)
    (returned : y.phase = .returned) : y.state.live = 0 := by
  obtain ⟨now, s, hlive, heq⟩ := run.exists_finish returned
  rw [heq, finish_live, hlive]

end

end Run
end TaskGen
