import TaskGen.Proofs.Actions

/-!
What a worker submits.  An attempt is submitted once at most, when its stages are done, and one
that is not submitted has failed or crashed.

Main statements: `Worker.status_of_not_submits`, `Worker.count_serve`.
-/

namespace TaskGen

/-! ### What is counted -/

namespace Act

open Pipeline

variable {σ ε ε' α β : Type} {count : σ → Nat} {act : Act σ ε α}

def Leaves (count : σ → Nat) (act : Act σ ε α) : Prop :=
  ∀ world, count (act world).2.others = count world.others

theorem leaves_done (result : α) : Leaves count (done result : Act σ ε α) := fun _ => rfl

theorem leaves_fail (error : ε) : Leaves count (fail error : Act σ ε α) := fun _ => rfl

theorem leaves_ofExcept (x : Except ε α) : Leaves count (ofExcept x : Act σ ε α) := by
  cases x with
  | ok result => exact leaves_done result
  | error e => exact leaves_fail e

theorem Leaves.bind_of_done {next : α → Act σ ε β} (h : Leaves count act)
    (hnext : ∀ world result world', act world = (.done result, world') →
      Leaves count (next result)) : Leaves count (act >>= next) := by
  intro world
  by_cases hdone : (act world).1.isDone = true
  · obtain ⟨result, hresult⟩ := eq_of_isDone hdone
    rw [Pipeline.bind_of_done hresult]
    exact (hnext world result _ hresult _).trans (h world)
  · rw [(bind_undone (Bool.eq_false_iff.2 hdone) next).2]
    exact h world

theorem Leaves.bind {next : α → Act σ ε β} (h : Leaves count act)
    (hnext : ∀ result, Leaves count (next result)) : Leaves count (act >>= next) :=
  h.bind_of_done fun _ result _ _ => hnext result

theorem Leaves.mapError (h : Leaves count act) (f : ε → ε') : Leaves count (act.mapError f) := by
  intro world
  rw [(Worker.mapError_run f act world).1]
  exact h world

theorem Leaves.attempt (h : Leaves count act) :
    Leaves count (act.attempt : Act σ ε' (Except ε α)) := by
  intro world
  have hact := h world
  unfold Act.attempt
  split <;> simp_all

theorem leaves_makeDirs (p : Path) : Leaves count (makeDirs p : Act σ FileError Unit) := by
  intro world
  exact leaves_ofExcept _ _

theorem leaves_change (f : FileTree → Except FileError FileTree) :
    Leaves count (change f : Act σ FileError Unit) := by
  intro world
  unfold change
  split <;> rfl

end Act

open Act

variable {σ : Type} {count : σ → Nat}

namespace Pipeline

def RunnersLeave (count : σ → Nat) (registry : Registry (Runner σ)) : Prop :=
  ∀ s runner, registry s = some runner → ∀ i, Leaves count (runner i)

theorem compositional_leaves (count : σ → Nat) :
    Compositional fun act => Leaves count act where
  done result := leaves_done result
  fail e _ := leaves_fail e
  files := fun _ => rfl
  read p := by
    apply Leaves.mapError
    intro world
    exact leaves_ofExcept (world.files.read p) world
  makeDirs p := (leaves_makeDirs p).mapError _
  change f := (leaves_change f).mapError _
  bind hact hnext := hact.bind_of_done hnext

theorem leaves_executeStage {registry : Registry (Runner σ)}
    (runners : RunnersLeave count registry) (i : Invocation) :
    Leaves count (executeStage registry i) := by
  cases hrunner : registry i.stage with
  | none =>
    unfold executeStage Registry.get
    rw [hrunner]
    exact leaves_fail _
  | some runner =>
    exact (compositional_leaves count).executeStage hrunner (runners i.stage runner hrunner i)

end Pipeline

namespace Worker

open Pipeline

variable {k : Worker σ} {t : Task} {world world' : World σ} {solution : Solution}

theorem leaves_prepare (runners : RunnersLeave count k.registry) (t : Task) :
    Leaves count (k.prepare t) := by
  unfold prepare
  split
  · exact leaves_fail _
  · apply Leaves.mapError
    apply (compositional_leaves count).prepareWith
    exact fun i _ => leaves_executeStage runners i

/-! ### One attempt -/

/-- When a worker takes the attempt, its stages are run to the end and the scheduler accepts what
they have made. -/
structure Submits (k : Worker σ) (t : Task) (world : World σ) : Prop where
  going : world.stopped = none
  accepted : ∃ final prepared id world', k.prepare t world = (.done final, prepared) ∧
    k.session.schedule final (k.workspace.attemptDir t.id t.attempt) prepared = (.done id, world')

structure Counts (k : Worker σ) (count : σ → Nat) : Prop where
  runners : RunnersLeave count k.registry
  accepted : ∀ task bundle world id world',
    k.session.schedule task bundle world = (.done id, world') →
      count world'.others = count world.others + 1
  refused : ∀ task bundle world, (k.session.schedule task bundle world).1.isDone = false →
    count (k.session.schedule task bundle world).2.others = count world.others
  asked : ∀ id, Leaves count (k.session.solution id)

theorem leaves_await {session : Session σ} (asked : ∀ id, Leaves count (session.solution id))
    (pause : Duration) (id : String) (patience : Nat) :
    Leaves count (session.await pause id patience) := by
  induction patience with
  | zero => exact fun _ => rfl
  | succ patience ih =>
    unfold Session.await
    apply (asked id).bind
    intro answer
    cases answer with
    | some solution => exact leaves_done solution
    | none => exact Leaves.bind (fun _ => rfl) fun _ => ih

/-- The scheduler gets what the stages have made, and its answer is waited for.  Otherwise there
is no solution, and nothing is done after what went wrong. -/
theorem solve_cases (k : Worker σ) (t : Task) (world : World σ) :
    (∃ final prepared id accepted, k.prepare t world = (.done final, prepared) ∧
      k.session.schedule final (k.workspace.attemptDir t.id t.attempt) prepared =
        (.done id, accepted) ∧
      (k.solve t world).2 = (k.session.await k.pause id k.patience accepted).2) ∨
    (k.solve t world).1.isDone = false ∧
      ((k.prepare t world).1.isDone = false ∧ (k.solve t world).2 = (k.prepare t world).2 ∨
        ∃ final prepared, k.prepare t world = (.done final, prepared) ∧
          (k.session.schedule final (k.workspace.attemptDir t.id t.attempt) prepared).1.isDone =
            false ∧
          (k.solve t world).2 =
            (k.session.schedule final (k.workspace.attemptDir t.id t.attempt) prepared).2) := by
  unfold solve
  by_cases hprepared : (k.prepare t world).1.isDone = true
  · obtain ⟨final, hfinal⟩ := eq_of_isDone hprepared
    rw [bind_of_done hfinal]
    obtain ⟨hworld, hdone, hresult⟩ := mapError_run WorkerError.session
      (k.session.schedule final (k.workspace.attemptDir t.id t.attempt)) (k.prepare t world).2
    by_cases haccepted : (k.session.schedule final (k.workspace.attemptDir t.id t.attempt)
        (k.prepare t world).2).1.isDone = true
    · obtain ⟨id, hid⟩ := eq_of_isDone (hdone.trans haccepted)
      rw [hworld] at hid
      refine .inl ⟨final, _, id, _, hfinal, Prod.ext (hresult id ?_) rfl, ?_⟩
      · rw [hid]
      · rw [bind_of_done hid]
        exact (mapError_run _ _ _).1
    · have hrefused := Bool.eq_false_iff.2 haccepted
      obtain ⟨hundone, hsame⟩ := bind_undone (hdone.trans hrefused)
        fun id => (k.session.await k.pause id k.patience).mapError WorkerError.session
      exact .inr ⟨hundone, .inr ⟨final, _, hfinal, hrefused, hsame.trans hworld⟩⟩
  · have hunprepared := Bool.eq_false_iff.2 hprepared
    obtain ⟨hundone, hsame⟩ := bind_undone hunprepared _
    exact .inr ⟨hundone, .inl ⟨hunprepared, hsame⟩⟩

/-- Nothing is begun any more once somebody has asked for the end of the run. -/
theorem serve_of_stopped (item : WorkItem) (stopped : world.stopped ≠ none) :
    k.serve item world = (some (.failed item "cancelled before start"), world) := by
  unfold serve
  rw [if_pos (Option.isSome_iff_ne_none.2 stopped)]

theorem serve_of_going (item : WorkItem) (going : world.stopped = none) :
    k.serve item world = (complete item (k.process item world).1, (k.process item world).2) := by
  unfold serve
  rw [going]
  rfl

/-- Without a solution the worker answers that the attempt has failed or crashed. -/
theorem status_of_undone (going : world.stopped = none)
    (undone : (k.solve t world).1.isDone = false)
    (served : (k.serve (.task t) world).1 = some (.task t solution)) :
    solution.status = .failed ∨ solution.status = .crashed := by
  rw [serve_of_going _ going, process, Act.bind_eq_andThen, Act.andThen, attempt] at served
  cases hsolve : k.solve t world with
  | mk outcome between =>
    rw [hsolve] at served undone
    cases outcome with
    | done result => cases undone
    | failed e =>
      cases served
      cases e with
      | stage e => exact .inl rfl
      | session e => exact .inr rfl
      | unknownRequirement requirement classKey => exact .inl rfl
    | panicked reason =>
      cases served
      exact .inr rfl
    | hung => cases served

theorem status_of_not_submits (unsubmitted : ¬ k.Submits t world)
    (served : (k.serve (.task t) world).1 = some (.task t solution)) :
    solution.status = .failed ∨ solution.status = .crashed := by
  by_cases going : world.stopped = none
  · rcases solve_cases k t world with ⟨final, prepared, id, accepted, hprepare, hschedule, -⟩ |
      ⟨hundone, -⟩
    · exact absurd ⟨going, final, prepared, id, accepted, hprepare, hschedule⟩ unsubmitted
    · exact status_of_undone going hundone served
  · rw [serve_of_stopped _ going] at served
    cases served
    exact .inr rfl

theorem serve_of_solve_done (going : world.stopped = none)
    (h : k.solve t world = (.done solution, world')) :
    (k.serve (.task t) world).1 = some (.task t solution) := by
  rw [serve_of_going _ going, process, Act.bind_eq_andThen, Act.andThen, attempt, h]
  rfl

theorem serve_world (going : world.stopped = none) :
    (k.serve (.task t) world).2 = (k.solve t world).2 := by
  rw [serve_of_going _ going, process, Act.bind_eq_andThen, Act.andThen, attempt]
  cases hsolve : k.solve t world with
  | mk outcome between =>
    cases outcome with
    | done result => rfl
    | failed e => rfl
    | panicked reason => rfl
    | hung => rfl

/-- No abstract task is ever submitted. -/
theorem count_serve_abstract (counts : k.Counts count) (t : AbstractTask) (world : World σ) :
    count (k.serve (.abstractTask t) world).2.others = count world.others := by
  by_cases going : world.stopped = none
  · have hgenerate : Leaves count (k.generate t) := by
      unfold generate
      split
      · exact leaves_done _
      · next c _ =>
        have hmodels : Leaves count (EnvModels.generate k.registry k.workspace t c) :=
          (compositional_leaves count).generate fun i _ => leaves_executeStage counts.runners i
        exact hmodels.attempt.bind fun _ => leaves_done _
    have hprocess : Leaves count (k.process (.abstractTask t)) :=
      hgenerate.bind fun _ => leaves_done _
    rw [serve_of_going _ going]
    exact hprocess world
  · rw [serve_of_stopped _ going]

/-- A scheduler that counts has counted one more if the attempt was submitted, and otherwise
none. -/
theorem count_serve (counts : k.Counts count) (t : Task) (world : World σ) :
    (k.Submits t world → count (k.serve (.task t) world).2.others = count world.others + 1) ∧
      (¬ k.Submits t world → count (k.serve (.task t) world).2.others = count world.others) := by
  have hprepared := leaves_prepare counts.runners t world
  constructor
  · rintro ⟨going, final, prepared, id, accepted, hprepare, hschedule⟩
    rw [serve_world going]
    rw [hprepare] at hprepared
    rcases solve_cases k t world with ⟨_, _, id', accepted', hprepare', hschedule', hworld⟩ |
      ⟨-, ⟨hunprepared, -⟩ | ⟨_, _, hprepare', hrefused, -⟩⟩
    · rw [hworld, leaves_await counts.asked, counts.accepted _ _ _ _ _ hschedule']
      rw [hprepare] at hprepare'
      cases hprepare'
      rw [hprepared]
    · rw [hprepare] at hunprepared
      cases hunprepared
    · rw [hprepare] at hprepare'
      cases hprepare'
      rw [hschedule] at hrefused
      cases hrefused
  · intro unsubmitted
    by_cases going : world.stopped = none
    · rw [serve_world going]
      rcases solve_cases k t world with ⟨final, prepared, id, accepted, hprepare, hschedule, -⟩ |
        ⟨-, ⟨-, hworld⟩ | ⟨_, _, hprepare, hrefused, hworld⟩⟩
      · exact absurd ⟨going, final, prepared, id, accepted, hprepare, hschedule⟩ unsubmitted
      · rw [hworld]
        exact hprepared
      · rw [hprepare] at hprepared
        rw [hworld, counts.refused _ _ _ hrefused]
        exact hprepared
    · rw [serve_of_stopped _ going]

end Worker
end TaskGen
