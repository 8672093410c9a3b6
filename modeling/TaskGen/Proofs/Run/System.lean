import TaskGen.Proofs.Pairs
import TaskGen.Run.Admission

/-!
The loop of a run, its workers and the two channels between them, at the grain at which they
meet: one item is admitted, one item is taken by a worker, one completion is sent, one
completion is dealt with.  A trace is any order in which this can happen.  So the workers are
as fast or as slow as they like, and the run may be cancelled, the workers may be stopped and
all of them may get lost at any point.

What the loop does in a step is what `Run.admitUpTo`, `Run.onCompletion`, `Run.dropItem` and
`Run.finish` do.
-/

namespace TaskGen

namespace Completion

def item : Completion → WorkItem
  | .abstractTask t _ => .abstractTask t
  | .task t _ => .task t

theorem key_item (c : Completion) : c.item.key = c.key := by cases c <;> rfl

@[simp] theorem item_failed (item : WorkItem) (reason : String) :
    (failed item reason).item = item := by cases item <;> rfl

end Completion

namespace Run

inductive Hand where
  | idle
  | working (item : WorkItem)
  /-- The work is done and its completion is not sent yet. -/
  | reporting (c : Completion)

/-- The items in the hands of a worker.  There is one at most. -/
def Hand.items : Hand → List WorkItem
  | .idle => []
  | .working item => [item]
  | .reporting c => [c.item]

inductive Phase where
  | running
  /-- Nothing is admitted any more, and what is under way has time to end. -/
  | draining
  /-- The workers have been stopped. -/
  | aborted
  | returned
  deriving DecidableEq, Repr

structure System where
  phase : Phase
  state : State
  /-- The items on their way to the workers. -/
  channel : Channel
  hands : List Hand
  /-- The completions on their way to the loop, the oldest one first. -/
  results : List Completion
  /-- The completions of items that the channel refused, for the loop to deal with. -/
  refused : List Completion

inductive Event where
  /-- An item is admitted, or goes back because there is no room for it, or is refused. -/
  | enter (item : WorkItem) (now : Duration)
  /-- The number of items under way is taken down. -/
  | observe
  | receive (item : WorkItem)
  /-- A worker is done with an item, be it that it broke down over it or did not begin. -/
  | complete (c : Completion)
  | report (c : Completion)
  /-- All workers are gone, with what they had and what waited for them. -/
  | lose
  | refuse (c : Completion) (now : Duration)
  | handle (c : Completion) (now : Duration)
  | cancel
  | abort
  /-- An item that was under way when the workers were stopped is given up. -/
  | strand (item : WorkItem) (now : Duration)
  /-- An item that was not admitted is given up. -/
  | drop (item : WorkItem)
  | finish (now : Duration)

def limit (r : Run) : Nat := r.config.scheduling.maxSolvingTasks

namespace System

def start (r : Run) (fragments : FragmentSet) (workers : Nat) : System where
  phase := .running
  state := r.start fragments
  channel := r.channel
  hands := List.replicate workers .idle
  results := []
  refused := []

/-- A run that goes on with nothing outside the loop. -/
def quiet (r : Run) (s : State) (hands : List Hand) : System where
  phase := .running
  state := s
  channel := r.channel
  hands
  results := []
  refused := []

def admitNext (r : Run) (now : Duration) (y : System) : System :=
  let a := admitUpTo r.limit now 1 y.state y.channel
  { y with state := a.state, channel := a.channel, refused := y.refused ++ a.refused }

def observe (y : System) : System :=
  let metrics := y.state.report.metrics.observeInFlight y.state.inFlight.length
  { y with state := { y.state with report := { y.state.report with metrics } } }

/-- There is nobody at the other end of the channels any more. -/
def withoutWorkers (y : System) : System :=
  { y with hands := [], channel := { y.channel with items := [], closed := true } }

end System

inductive Step (r : Run) : System → Event → System → Prop where
  | enter {y : System} {item : WorkItem} {rest : State} (now : Duration)
      (running : y.phase = .running) (room : y.state.inFlight.length < r.limit)
      (next : y.state.next? = some (item, rest)) :
      Step r y (.enter item now) (y.admitNext r now)
  | observe {y : System} (running : y.phase = .running) : Step r y .observe y.observe
  | receive {y : System} {item : WorkItem} {rest : List WorkItem} {before after : List Hand}
      (waits : y.channel.items = item :: rest) (free : y.hands = before ++ .idle :: after) :
      Step r y (.receive item)
        { y with
          channel := { y.channel with items := rest }
          hands := before ++ .working item :: after }
  | complete {y : System} {c : Completion} {before after : List Hand}
      (busy : y.hands = before ++ .working c.item :: after) :
      Step r y (.complete c) { y with hands := before ++ .reporting c :: after }
  | report {y : System} {c : Completion} {before after : List Hand}
      (done : y.hands = before ++ .reporting c :: after) (room : y.results.length < r.limit) :
      Step r y (.report c)
        { y with hands := before ++ .idle :: after, results := y.results ++ [c] }
  | lose {y : System} : Step r y .lose y.withoutWorkers
  | refuse {y : System} {c : Completion} {rest : List Completion} (now : Duration)
      (running : y.phase = .running) (first : y.refused = c :: rest) :
      Step r y (.refuse c now)
        { y with state := r.onCompletion now c y.state, refused := rest }
  | handle {y : System} {c : Completion} {rest : List Completion} (now : Duration)
      (going : y.phase ≠ .returned) (settled : y.refused = []) (first : y.results = c :: rest) :
      Step r y (.handle c now)
        { y with state := r.onCompletion now c y.state, results := rest }
  | cancel {y : System} (running : y.phase = .running) (settled : y.refused = []) :
      Step r y .cancel { y with phase := .draining, state := beginCancel y.state }
  | abort {y : System} (draining : y.phase = .draining) :
      Step r y .abort { y.withoutWorkers with phase := .aborted }
  | strand {y : System} {p : ItemKey × InFlight} (now : Duration) (aborted : y.phase = .aborted)
      (silent : y.results = []) (left : p ∈ y.state.inFlight) :
      Step r y (.strand p.2.item now)
        { y with
          state := r.onCompletion now
            (.failed p.2.item "aborted after shutdown grace period") y.state }
  | drop {y : System} {item : WorkItem} {rest : State} (aborted : y.phase = .aborted)
      (silent : y.results = []) (none : y.state.inFlight = [])
      (next : y.state.next? = some (item, rest)) :
      Step r y (.drop item) { y with state := r.dropItem item rest }
  | finish {y : System} (now : Duration) (running : y.phase = .running)
      (settled : y.refused = []) (done : y.state.isDone = true) :
      Step r y (.finish now) { y with phase := .returned, state := Run.finish now y.state }
  | conclude {y : System} (now : Duration) (aborted : y.phase = .aborted)
      (silent : y.results = []) (none : y.state.inFlight = []) (empty : y.state.waiting = 0) :
      Step r y (.finish now) { y with phase := .returned, state := Run.finish now y.state }

inductive Trace (r : Run) (fragments : FragmentSet) (workers : Nat) :
    List Event → System → Prop where
  | start : Trace r fragments workers [] (.start r fragments workers)
  | step {es : List Event} {e : Event} {y y' : System} (run : Trace r fragments workers es y)
      (next : Step r y e y') : Trace r fragments workers (es ++ [e]) y'

/-! ### The history of a run -/

def Event.completion? : Event → Option Completion
  | .refuse c _ | .handle c _ => some c
  | .strand item _ => some (.failed item "aborted after shutdown grace period")
  | _ => none

def handled (es : List Event) : List Completion := es.filterMap Event.completion?

theorem handled_append (es : List Event) (e : Event) :
    handled (es ++ [e]) = handled es ++ e.completion?.toList := by
  rw [handled, List.filterMap_append]
  cases h : e.completion? <;> simp [handled, h]

def Answers (allowed : Completion → Prop) (es : List Event) : Prop :=
  ∀ c, .complete c ∈ es → allowed c

theorem Answers.of_append {allowed : Completion → Prop} {es : List Event} {e : Event}
    (h : Answers allowed (es ++ [e])) : Answers allowed es :=
  fun c hc => h c (List.mem_append_left _ hc)

def Hand.completions : Hand → List Completion
  | .reporting c => [c]
  | _ => []

/-- The completions that the workers have come up with and the loop has not dealt with. -/
def System.answered (y : System) : List Completion :=
  y.hands.flatMap Hand.completions ++ y.results

theorem mem_completions (before after : List Hand) (hand : Hand) (c : Completion) :
    c ∈ (before ++ hand :: after).flatMap Hand.completions ↔
      c ∈ hand.completions ∨ c ∈ (before ++ after).flatMap Hand.completions := by
  rw [List.flatMap_append, List.flatMap_cons, List.flatMap_append, List.mem_append,
    List.mem_append, List.mem_append]
  exact or_left_comm

theorem admitUpTo_refused (limit : Nat) (now : Duration) (n : Nat) (s : State) (channel : Channel) :
    ∀ c ∈ (admitUpTo limit now n s channel).refused, ∃ item reason, c = .failed item reason := by
  induction n generalizing s channel with
  | zero => simp [admitUpTo]
  | succ n ih =>
    intro c hc
    rw [admitUpTo] at hc
    split at hc
    · split at hc
      · simp at hc
      · split at hc
        · exact ih _ _ c hc
        · simp at hc
        · rcases List.mem_cons.1 hc with rfl | hrest
          · exact ⟨_, _, rfl⟩
          · exact ih _ _ c hrest
    · simp at hc

theorem admitUpTo_closed (limit : Nat) (now : Duration) (n : Nat) (s : State)
    (channel : Channel) :
    (admitUpTo limit now n s channel).channel.closed = channel.closed := by
  induction n generalizing s channel with
  | zero => rfl
  | succ n ih =>
    rw [admitUpTo]
    split
    · split
      · rfl
      · split
        · next c hsend =>
          unfold Channel.send at hsend
          split at hsend
          · cases hsend
          · split at hsend
            · cases hsend
              exact ih _ _
            · cases hsend
        · rfl
        · exact ih _ _
    · rfl

/-- The only item that is admitted is the only one in the channel. -/
theorem System.admitNext_quiet {r : Run} {s rest : State} {item : WorkItem}
    (next : s.next? = some (item, rest)) (room : s.inFlight.length < r.limit) (now : Duration)
    (hands : List Hand) :
    (System.quiet r s hands).admitNext r now =
      { System.quiet r (rest.enter item now) hands with
        channel := { r.channel with items := [item] } } := by
  have hlimit : 0 < r.limit := Nat.lt_of_le_of_lt (Nat.zero_le _) room
  have hsend : r.channel.send item = .taken { r.channel with items := [item] } := if_pos hlimit
  have hone : admitUpTo r.limit now 1 s r.channel =
      ⟨rest.enter item now, { r.channel with items := [item] }, []⟩ := by
    rw [admitUpTo, if_pos room, next]
    simp only [hsend]
    rfl
  rw [System.admitNext, System.quiet, hone]
  rfl

namespace Trace

variable {r : Run} {fragments : FragmentSet} {workers : Nat} {es : List Event} {y : System}

/-- What comes back from the workers is what they came up with. -/
theorem of_answered (run : Trace r fragments workers es y) :
    ∀ c ∈ y.answered, .complete c ∈ es := by
  induction run with
  | start => simp [System.answered, System.start, Hand.completions]
  | @step es e y y' run next ih =>
    intro c hc
    refine List.mem_append.2 ?_
    cases next with
    | receive waits free =>
      refine .inl (ih c ?_)
      simpa [System.answered, free, Hand.completions] using hc
    | @complete c' before after busy =>
      rcases List.mem_append.1 hc with hhands | hresults
      · rcases (mem_completions before after _ c).1 hhands with hnew | hothers
        · rw [List.mem_singleton.1 hnew]
          exact .inr (List.mem_singleton.2 rfl)
        · refine .inl (ih c (List.mem_append_left _ ?_))
          rw [busy]
          exact (mem_completions before after _ c).2 (.inr hothers)
      · exact .inl (ih c (List.mem_append_right _ hresults))
    | @report c' before after done room =>
      refine .inl (ih c ?_)
      rcases List.mem_append.1 hc with hhands | hresults
      · rcases (mem_completions before after _ c).1 hhands with hnone | hothers
        · cases hnone
        · refine List.mem_append_left _ ?_
          rw [done]
          exact (mem_completions before after _ c).2 (.inr hothers)
      · rcases List.mem_append.1 hresults with hold | hnew
        · exact List.mem_append_right _ hold
        · refine List.mem_append_left _ ?_
          rw [done]
          exact (mem_completions before after _ c).2 (.inl hnew)
    | refuse now running first => exact .inl (ih c hc)
    | @handle c' rest now going settled first =>
      refine .inl (ih c ?_)
      rw [System.answered, first]
      exact (List.mem_append.1 hc).elim (List.mem_append_left _)
        (fun h => List.mem_append_right _ (List.mem_cons_of_mem _ h))
    | lose => exact .inl (ih c (List.mem_append_right _ hc))
    | abort draining => exact .inl (ih c (List.mem_append_right _ hc))
    | enter now running room next => exact .inl (ih c hc)
    | observe running => exact .inl (ih c hc)
    | cancel running settled => exact .inl (ih c hc)
    | strand now aborted silent left => exact .inl (ih c hc)
    | drop aborted silent none next => exact .inl (ih c hc)
    | finish now running settled done => exact .inl (ih c hc)
    | conclude now aborted silent none empty => exact .inl (ih c hc)

/-- Nobody has tried what comes back without a worker. -/
theorem of_refused (run : Trace r fragments workers es y) :
    ∀ c ∈ y.refused, ∃ item reason, c = .failed item reason := by
  induction run with
  | start => simp [System.start]
  | @step es e y y' run next ih =>
    intro c hc
    cases next with
    | enter now running room next =>
      rcases List.mem_append.1 hc with hold | hnew
      · exact ih c hold
      · exact admitUpTo_refused _ _ _ _ _ c hnew
    | refuse now running first =>
      rw [first] at ih
      exact ih c (List.mem_cons_of_mem _ hc)
    | _ => exact ih c hc

/-- A completion that is dealt with comes from a worker or says that there was none. -/
theorem of_handled (run : Trace r fragments workers es y) :
    ∀ c ∈ handled es, .complete c ∈ es ∨ ∃ item reason, c = .failed item reason := by
  induction run with
  | start => simp [handled]
  | @step es e y y' run next ih =>
    intro c hc
    rw [handled_append, List.mem_append] at hc
    rcases hc with hold | hlast
    · exact (ih c hold).imp (List.mem_append_left _) id
    · have hcompletion : e.completion? = some c := by
        rw [Option.mem_toList] at hlast
        exact hlast
      cases next with
      | refuse now running first =>
        cases hcompletion
        refine .inr (run.of_refused c ?_)
        rw [first]
        exact List.mem_cons_self
      | handle now going settled first =>
        cases hcompletion
        refine .inl (List.mem_append_left _ (run.of_answered c ?_))
        rw [System.answered, first]
        exact List.mem_append_right _ List.mem_cons_self
      | strand now aborted silent left =>
        cases hcompletion
        exact .inr ⟨_, _, rfl⟩
      | _ => cases hcompletion

/-- What was done before was done in a run that ended there. -/
theorem of_split (run : Trace r fragments workers es y) {before after : List Event} {e : Event}
    (split : es = before ++ e :: after) :
    ∃ y₁ y₂, Trace r fragments workers before y₁ ∧ Step r y₁ e y₂ := by
  induction run generalizing after with
  | start => simp at split
  | @step es e' y y' run next ih =>
    rcases cases_of_concat_eq split with ⟨rfl, rfl, _⟩ | ⟨init, hfront, _⟩
    · exact ⟨y, y', run, next⟩
    · exact ih hfront

/-! ### One item after the other -/

variable {others : List Hand} {c : Completion}

/-- A worker takes the item in front and works on it. -/
theorem serve (run : Trace r fragments workers es y) {rest : List WorkItem}
    (waits : y.channel.items = c.item :: rest) (free : y.hands = .idle :: others) :
    Trace r fragments workers (es ++ [.receive c.item] ++ [.complete c])
      { y with
        channel := { y.channel with items := rest }
        hands := .reporting c :: others } :=
  (run.step (@Step.receive _ _ _ _ [] _ waits free)).step (@Step.complete _ _ _ [] _ rfl)

/-- The worker sends its completion, and the loop deals with it. -/
theorem answer (run : Trace r fragments workers es y) (done : y.hands = .reporting c :: others)
    (none : y.results = []) (limit : 0 < r.limit) (going : y.phase ≠ .returned)
    (settled : y.refused = []) (now : Duration) :
    Trace r fragments workers (es ++ [.report c] ++ [.handle c now])
      { y with state := r.onCompletion now c y.state, hands := .idle :: others } := by
  have hroom : y.results.length < r.limit := by
    rw [none]
    exact limit
  have hreport := run.step (@Step.report _ _ _ [] _ done hroom)
  rw [none] at hreport
  have hhandle := hreport.step (@Step.handle _ _ _ [] now going settled rfl)
  rw [← none] at hhandle
  exact hhandle

/-- An item is admitted, worked on and dealt with before anything else happens. -/
theorem turn {s rest : State}
    (run : Trace r fragments workers es (.quiet r s (.idle :: others)))
    (next : s.next? = some (c.item, rest)) (room : s.inFlight.length < r.limit)
    (now : Duration) :
    Trace r fragments workers
      (es ++ [.enter c.item now] ++ [.receive c.item] ++ [.complete c] ++ [.report c] ++
        [.handle c now])
      (.quiet r (r.onCompletion now c (rest.enter c.item now)) (.idle :: others)) := by
  have hlimit : 0 < r.limit := Nat.lt_of_le_of_lt (Nat.zero_le _) room
  have hentered := run.step (.enter now rfl room next)
  rw [System.admitNext_quiet next room] at hentered
  exact (hentered.serve rfl rfl).answer rfl rfl hlimit (by simp [System.quiet]) rfl now

end Trace

def sample (limit : Nat) (defer : Bool) : Run where
  config := {
    subJob := "default"
    mainDirectory := ⟨"."⟩
    keepFiles := false
    singleModel := true
    specificationsBase := ⟨"specs.json"⟩
    patterns := ["alloc"]
    fragmentsFile := ⟨"program fragments.txt"⟩
    scheduling := { Scheduling.standard with maxSolvingTasks := limit, deferRescheduling := defer }
    limits := .standard
    rescheduling := .standard
    plugins := [] }
  classes := RequirementClasses.classify [⟨"alloc", [⟨.requirementModel, []⟩]⟩]

end Run
end TaskGen
