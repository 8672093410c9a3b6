import TaskGen.Proofs.Run.Accounting

/-!
What dealing with an item tells others, what it releases, and what becomes of the numbers of
open tasks.
-/

namespace TaskGen

namespace WorkItem

/-- The abstract task that the item is or comes from. -/
def pair : WorkItem → AbstractTaskId
  | .abstractTask t => t.id
  | .task t => t.id.abstractId

def origin? : WorkItem → Option AbstractTaskId
  | .abstractTask _ => none
  | .task t => some t.id.abstractId

theorem pair_of_origin {item : WorkItem} {id : AbstractTaskId} (h : item.origin? = some id) :
    item.pair = id := by
  cases item with
  | abstractTask t => cases h
  | task t => exact Option.some.inj h

end WorkItem

namespace Run

open State

variable {r : Run} {s s' : State}

/-! ### Telling and releasing -/

def freed (r : Run) (dir : Path) : List Effect :=
  if r.config.keepFiles then [] else [.release dir]

theorem effects_release (r : Run) (dir : Path) (s : State) :
    (r.release dir s).effects = s.effects ++ r.freed dir := by
  unfold release freed
  split
  · exact (List.append_nil _).symm
  · rfl

theorem openTasks_release (r : Run) (dir : Path) (s : State) :
    (r.release dir s).openTasks = s.openTasks := by
  unfold release
  split <;> rfl

/-- These effects have been added, and totals may have been announced after them. -/
def Told (s s' : State) (new : List Effect) : Prop :=
  ∃ totals : List Nat, s'.effects = s.effects ++ new ++ totals.map .announce

/-- Only what was added releases anything. -/
theorem Told.mem_release {new : List Effect} (h : Told s s' new) {dir : Path}
    (hmem : .release dir ∈ s'.effects) : .release dir ∈ s.effects ∨ .release dir ∈ new := by
  obtain ⟨totals, heq⟩ := h
  rw [heq, List.mem_append, List.mem_append] at hmem
  rcases hmem with hadded | htotal
  · exact hadded
  · obtain ⟨n, _, hn⟩ := List.mem_map.1 htotal
    cases hn

theorem announce_told (total : Nat) (s : State) :
    Told s (announce total s) [] ∧ (announce total s).openTasks = s.openTasks := by
  unfold announce
  split
  · exact ⟨⟨[], by simp⟩, rfl⟩
  · exact ⟨⟨[total], by simp [emit]⟩, rfl⟩

theorem afterAbstract_told (s : State) :
    Told s (afterAbstract s) [] ∧ (afterAbstract s).openTasks = s.openTasks := by
  unfold afterAbstract
  split
  · exact announce_told _ s
  · exact ⟨⟨[], by simp⟩, rfl⟩

theorem finish_told (now : Duration) (s : State) :
    Told s (finish now s) [] ∧ (finish now s).openTasks = s.openTasks :=
  announce_told s.expectedTotal s

theorem queueRetry_told (r : Run) (item : WorkItem) (s : State) :
    (r.queueRetry item s).effects = s.effects ∧
      (r.queueRetry item s).openTasks = s.openTasks := by
  unfold queueRetry
  split <;> exact ⟨rfl, rfl⟩

theorem foldl_record_told (id : AbstractTaskId) (qs : List String) (s : State) :
    (qs.foldl (fun s q => record (outcomeWithoutModel id q) s) s).effects =
        s.effects ++ qs.map (.complete · .failed) ∧
      (qs.foldl (fun s q => record (outcomeWithoutModel id q) s) s).openTasks = s.openTasks := by
  induction qs generalizing s with
  | nil => exact ⟨(List.append_nil _).symm, rfl⟩
  | cons q qs ih =>
    obtain ⟨heffects, hopen⟩ := ih (record (outcomeWithoutModel id q) s)
    refine ⟨?_, hopen⟩
    rw [List.foldl_cons, heffects]
    simp [record, emit, outcomeWithoutModel]

theorem failClass_told (r : Run) (id : AbstractTaskId) (c : RequirementClass) (s : State) :
    Told s (r.failClass id c s) (c.identifiers.map (.complete · .failed) ++
        r.freed (r.workspace.abstractDir id)) ∧
      (r.failClass id c s).openTasks = s.openTasks := by
  unfold failClass
  dsimp only
  obtain ⟨heffects, hopen⟩ := foldl_record_told id c.identifiers
    { s with expectedTotal := s.expectedTotal + c.size }
  obtain ⟨⟨totals, htotals⟩, hafter⟩ := afterAbstract_told
    (r.release (r.workspace.abstractDir id) (c.identifiers.foldl
      (fun s q => record (outcomeWithoutModel id q) s)
      { s with expectedTotal := s.expectedTotal + c.size }))
  refine ⟨⟨totals, ?_⟩, ?_⟩
  · rw [htotals, effects_release, heffects, List.append_nil, List.append_assoc s.effects]
  · rw [hafter, openTasks_release, hopen]

theorem fanOut_told (id : AbstractTaskId) (c : RequirementClass) (models : List EnvModel)
    (s : State) :
    Told s (fanOut id c models s) [] ∧ (fanOut id c models s).openTasks =
      (s.openTasks.filter fun p => p.1 ≠ id) ++ [(id, models.length * c.size)] := by
  unfold fanOut
  dsimp only
  rw [foldl_queueTask]
  exact afterAbstract_told _

theorem closeTask_of_open (r : Run) {id : AbstractTaskId} {n : Nat}
    (h : s.openTasks.lookup id = some (n + 1)) :
    (r.closeTask id s).effects =
        s.effects ++ (if n = 0 then r.freed (r.workspace.abstractDir id) else []) ∧
      (r.closeTask id s).openTasks =
        (s.openTasks.filter fun p => p.1 ≠ id) ++ (if n = 0 then [] else [(id, n)]) := by
  unfold closeTask
  rw [h]
  dsimp only
  by_cases hn : n = 0
  · rw [if_pos hn, if_pos hn, if_pos (by omega), effects_release, openTasks_release,
      List.append_nil]
    exact ⟨rfl, rfl⟩
  · rw [if_neg hn, if_neg hn, if_neg (by omega), List.append_nil]
    exact ⟨rfl, rfl⟩

theorem finishTask_of_open (r : Run) {t : Task} (status : FinalStatus) (attempts : Nat) {n : Nat}
    (h : s.openTasks.lookup t.id.abstractId = some (n + 1)) :
    (r.finishTask t status attempts s).effects = s.effects ++
        (.complete t.id.requirement status :: r.freed (r.workspace.taskDir t.id) ++
          (if n = 0 then r.freed (r.workspace.abstractDir t.id.abstractId) else [])) ∧
      (r.finishTask t status attempts s).openTasks =
        (s.openTasks.filter fun p => p.1 ≠ t.id.abstractId) ++
          (if n = 0 then [] else [(t.id.abstractId, n)]) := by
  unfold finishTask
  dsimp only
  have hopen := openTasks_release r (r.workspace.taskDir t.id)
    { record (outcomeOf t status attempts) s with
      governor := (record (outcomeOf t status attempts) s).governor.forget t.id }
  obtain ⟨heffects, hclosed⟩ := closeTask_of_open r (hopen ▸ h)
  refine ⟨?_, ?_⟩
  · rw [heffects, effects_release]
    simp [record, emit, outcomeOf]
  · rw [hclosed, hopen]
    rfl

/-! ### One item -/

/-- What dealing with an item comes to, be it that its completion came or that it is given up:
what lives in its place, what the report says of it, what becomes of the numbers of open tasks
and what others get to know. -/
inductive Leaving (r : Run) (s s' : State) : WorkItem → Prop where
  | barren {t : AbstractTask} {c : RequirementClass}
      (live : s'.live = s.live)
      (outcomes : s'.report.outcomes =
        s.report.outcomes ++ c.identifiers.map (outcomeWithoutModel t.id))
      (openTasks : s'.openTasks = s.openTasks)
      (told : Told s s' (c.identifiers.map (.complete · .failed) ++
        r.freed (r.workspace.abstractDir t.id))) : Leaving r s s' (.abstractTask t)
  | fanned {t : AbstractTask} {tasks : List WorkItem} (some : tasks ≠ [])
      (own : ∀ i ∈ tasks, i.origin? = .some t.id)
      (live : s'.live = s.live + ↑tasks)
      (outcomes : s'.report.outcomes = s.report.outcomes)
      (openTasks : s'.openTasks =
        (s.openTasks.filter fun p => p.1 ≠ t.id) ++ [(t.id, tasks.length)])
      (told : Told s s' []) : Leaving r s s' (.abstractTask t)
  | ended {t : Task} {status : FinalStatus} {attempts : Nat}
      (live : s'.live = s.live)
      (outcomes : s'.report.outcomes = s.report.outcomes ++ [outcomeOf t status attempts])
      (closed : ∀ n, s.openTasks.lookup t.id.abstractId = some (n + 1) →
        s'.openTasks = (s.openTasks.filter fun p => p.1 ≠ t.id.abstractId) ++
            (if n = 0 then [] else [(t.id.abstractId, n)]) ∧
          Told s s' (.complete t.id.requirement status :: r.freed (r.workspace.taskDir t.id) ++
            (if n = 0 then r.freed (r.workspace.abstractDir t.id.abstractId) else []))) :
      Leaving r s s' (.task t)
  | again {t t' : Task} (same : t'.id = t.id)
      (live : s'.live = .task t' ::ₘ s.live)
      (outcomes : s'.report.outcomes = s.report.outcomes)
      (openTasks : s'.openTasks = s.openTasks)
      (told : Told s s' []) : Leaving r s s' (.task t)

theorem length_constructed (id : AbstractTaskId) (c : RequirementClass)
    (models : List EnvModel) : (constructed id c models).length = models.length * c.size := by
  rw [constructed, List.length_flatMap]
  simp [size_eq_length_identifiers]

theorem onAbstract_leaving (t : AbstractTask) {c : RequirementClass}
    (hc : Dict.find? r.classes t.id.classKey = some c)
    (models : Except String (List EnvModel)) (s : State) :
    Leaving r s (r.onAbstract t models s) (.abstractTask t) := by
  by_cases hmodels : modelsOf models = []
  · have haside := onAbstract_aside_of_nil r t s hc hmodels
    obtain ⟨htold, hopen⟩ := failClass_told r t.id c s.withAbstract
    rw [← onAbstract_of_nil r t s hc hmodels] at htold hopen
    exact .barren haside.live_eq haside.outcomes_eq hopen htold
  · have haside := onAbstract_aside_of_ne_nil r t s hc hmodels
    obtain ⟨htold, hopen⟩ := fanOut_told t.id c (modelsOf models) s.withAbstract
    rw [← onAbstract_of_ne_nil r t s hc hmodels] at htold hopen
    have hlive := haside.live_eq.trans (live_withTasks ..)
    have hlength : ((constructed t.id c (modelsOf models)).map (firstAttempt s.governor)).length =
        (modelsOf models).length * c.size := by
      rw [List.length_map, length_constructed]
    -- There is a model, and a class has its pilot at least.
    have hsome : (constructed t.id c (modelsOf models)).map (firstAttempt s.governor) ≠ [] := by
      rw [← List.length_pos_iff, hlength]
      exact Nat.mul_pos (List.length_pos_iff.2 hmodels) (Nat.succ_pos _)
    refine .fanned hsome (fun i hi => ?_) hlive haside.outcomes_eq ?_ htold
    · obtain ⟨task, htask, rfl⟩ := List.mem_map.1 hi
      exact congrArg some (abstractId_of_mem_constructed (List.mem_map_of_mem htask))
    · rw [hopen, hlength]
      rfl

theorem finishTask_leaving (t : Task) (status : FinalStatus) (attempts : Nat) (s : State)
    (governor : Governor) :
    Leaving r s (r.finishTask t status attempts { s with governor }) (.task t) := by
  have haside := finishTask_aside r t status attempts { s with governor }
  refine .ended haside.live_eq (haside.outcomes_eq.trans (s.report.outcomes_record _))
    fun n hn => ?_
  obtain ⟨heffects, hclosed⟩ := @finishTask_of_open { s with governor } r t status attempts n hn
  refine ⟨hclosed, [], ?_⟩
  rw [heffects, List.map_nil, List.append_nil]

theorem onTask_leaving (t : Task) (solution : Solution) (s : State) :
    Leaving r s (r.onTask t solution s) (.task t) := by
  rcases onTask_eq_cases r t solution s with
    ⟨status, governor, _, heq⟩ | ⟨attempt, limits, governor, _, heq⟩
  · rw [heq]
    exact finishTask_leaving t status _ s governor
  · obtain ⟨heffects, hopen⟩ := queueRetry_told r (.task { t with attempt, limits })
      (s.withRetry governor)
    rw [heq]
    have hlive := live_queueRetry r (.task { t with attempt, limits }) (s.withRetry governor)
    refine .again (by rfl) hlive ?_ hopen ⟨[], ?_⟩
    · rw [report_queueRetry]
      rfl
    · rw [heffects, List.map_nil, List.append_nil, List.append_nil]
      rfl

theorem deal_leaving {c : Completion} (s : State) (known : ∀ t, c.item = .abstractTask t →
      (Dict.find? r.classes t.id.classKey).isSome) : Leaving r s (r.deal c s) c.item := by
  cases c with
  | abstractTask t models =>
    obtain ⟨cls, hclass⟩ := Option.isSome_iff_exists.1 (known t rfl)
    exact onAbstract_leaving t hclass models s
  | task t solution => exact onTask_leaving t solution s

theorem dropItem_leaving {item : WorkItem} (s : State) (known : ∀ t, item = .abstractTask t →
      (Dict.find? r.classes t.id.classKey).isSome) : Leaving r s (r.dropItem item s) item := by
  cases item with
  | abstractTask t =>
    obtain ⟨cls, hclass⟩ := Option.isSome_iff_exists.1 (known t rfl)
    rw [dropItem]
    exact onAbstract_leaving t hclass _ s
  | task t => exact finishTask_leaving t .failed t.attempt s s.governor

/-! ### One step -/

/-- Nothing has been told but totals, and nothing has been opened, closed or recorded. -/
structure Quiet (s s' : State) : Prop where
  openTasks : s'.openTasks = s.openTasks
  outcomes : s'.report.outcomes = s.report.outcomes
  told : Told s s' []

theorem Quiet.of_eq (openTasks : s'.openTasks = s.openTasks)
    (outcomes : s'.report.outcomes = s.report.outcomes) (effects : s'.effects = s.effects) :
    Quiet s s' where
  openTasks := openTasks
  outcomes := outcomes
  told := ⟨[], by rw [effects, List.map_nil, List.append_nil, List.append_nil]⟩

theorem finish_quiet (now : Duration) (s : State) : Quiet s (finish now s) := by
  obtain ⟨htold, hopen⟩ := finish_told now s
  refine ⟨hopen, ?_, htold⟩
  obtain ⟨_, _, _, _, heq⟩ := finish_eq now s
  rw [heq]

theorem start_quiet (r : Run) (fragments : FragmentSet) :
    Quiet (r.queued fragments) (r.start fragments) := by
  unfold start
  dsimp only
  split
  · obtain ⟨htold, hopen⟩ := announce_told
      (fragments.length * RequirementClasses.totalRequirements r.classes) (r.queued fragments)
    exact ⟨hopen, (announce_aside _ _).outcomes_eq, htold⟩
  · exact .of_eq rfl rfl rfl

theorem Shift.quiet (shift : Shift s s') : Quiet s s' := by
  obtain ⟨_, _, _, _, _, _, _, rfl⟩ := shift
  exact .of_eq rfl rfl rfl

/-- An item is dealt with, or nothing is done that matters here. -/
theorem Move.leaving_or_quiet {completion : Option Completion} (move : Move r s completion s')
    (known : ∀ t, .abstractTask t ∈ s.live → (Dict.find? r.classes t.id.classKey).isSome) :
    (∃ item rest, s.live = item ::ₘ rest.live ∧ Quiet s rest ∧ Leaving r rest s' item) ∨
      (s'.live = s.live ∧ Quiet s s') := by
  have hknown : ∀ {item : WorkItem} {rest : State}, s.live = item ::ₘ rest.live →
      ∀ t, item = .abstractTask t → (Dict.find? r.classes t.id.classKey).isSome := by
    intro item rest hlive t ht
    refine known t ?_
    rw [hlive, ht]
    exact Multiset.mem_cons_self _ _
  cases move with
  | deal shift live => exact .inl ⟨_, _, live, shift.quiet, deal_leaving _ (hknown live)⟩
  | drop shift live => exact .inl ⟨_, _, live, shift.quiet, dropItem_leaving _ (hknown live)⟩
  | finish now idle => exact .inr ⟨finish_live now s, finish_quiet now s⟩
  | shift shift live => exact .inr ⟨live, shift.quiet⟩

/-! ### When all files are kept -/

def Spares (s s' : State) : Prop := ∀ dir, .release dir ∈ s'.effects → .release dir ∈ s.effects

theorem Spares.of_eq (h : s'.effects = s.effects) : Spares s s' := fun _ hmem => h ▸ hmem

theorem Told.spares {new : List Effect} (h : Told s s' new) (none : ∀ dir, .release dir ∉ new) :
    Spares s s' := fun dir hmem => (h.mem_release hmem).resolve_right (none dir)

section
variable (kept : r.config.keepFiles = true)
include kept

theorem onAbstract_spares (t : AbstractTask) (models : Except String (List EnvModel))
    (s : State) : Spares s (r.onAbstract t models s) := by
  cases hclass : Dict.find? r.classes t.id.classKey with
  | none =>
    rw [onAbstract, hclass]
    exact .of_eq rfl
  | some c =>
    by_cases hmodels : modelsOf models = []
    · rw [onAbstract_of_nil r t s hclass hmodels]
      have htold := (failClass_told r t.id c s.withAbstract).1
      have hfreed : r.freed (r.workspace.abstractDir t.id) = [] := if_pos kept
      rw [hfreed, List.append_nil] at htold
      exact htold.spares fun dir hmem => by simp at hmem
    · rw [onAbstract_of_ne_nil r t s hclass hmodels]
      have htold := (fanOut_told t.id c (modelsOf models) s.withAbstract).1
      exact htold.spares fun dir => List.not_mem_nil

theorem closeTask_spares (id : AbstractTaskId) (s : State) : Spares s (r.closeTask id s) := by
  unfold closeTask
  split
  · exact .of_eq rfl
  · dsimp only
    split
    · rw [release, if_pos kept]
      exact .of_eq rfl
    · exact .of_eq rfl

theorem finishTask_spares (t : Task) (status : FinalStatus) (attempts : Nat) (s : State)
    (governor : Governor) : Spares s (r.finishTask t status attempts { s with governor }) := by
  intro dir hmem
  unfold finishTask at hmem
  dsimp only at hmem
  rw [release, if_pos kept] at hmem
  simpa [record, emit] using closeTask_spares kept _ _ dir hmem

theorem onTask_spares (t : Task) (solution : Solution) (s : State) :
    Spares s (r.onTask t solution s) := by
  rcases onTask_eq_cases r t solution s with
    ⟨status, governor, _, heq⟩ | ⟨attempt, limits, governor, _, heq⟩
  · rw [heq]
    exact finishTask_spares kept t status _ s governor
  · rw [heq]
    exact .of_eq (queueRetry_told r (.task { t with attempt, limits }) (s.withRetry governor)).1

theorem onCompletion_spares (now : Duration) (c : Completion) (s : State) :
    Spares s (r.onCompletion now c s) := by
  unfold onCompletion
  cases hleave : s.leave? c.key with
  | none => exact .of_eq rfl
  | some p =>
    obtain ⟨f, rest⟩ := p
    have heffects : rest.effects = s.effects := by
      obtain ⟨f', _, heq⟩ := Option.map_eq_some_iff.1 hleave
      cases heq
      rfl
    intro dir hmem
    rw [← heffects]
    cases c with
    | abstractTask t models =>
      have hspared := onAbstract_spares kept t models _ dir hmem
      exact hspared
    | task t solution =>
      have hspared := onTask_spares kept t solution _ dir hmem
      exact hspared

theorem dropItem_spares (item : WorkItem) (s : State) : Spares s (r.dropItem item s) := by
  cases item with
  | abstractTask t =>
    rw [dropItem]
    exact onAbstract_spares kept t _ s
  | task t => exact finishTask_spares kept t .failed t.attempt s s.governor

theorem Step.spares {e : Event} {y y' : System} (step : Step r y e y') :
    Spares y.state y'.state := by
  have hnext : ∀ {s rest : State} {item : WorkItem}, s.next? = some (item, rest) →
      rest.effects = s.effects := by
    intro s rest item next
    obtain ⟨_, backlog, retries, hrest⟩ := unadmitted_of_next? next
    rw [hrest]
  cases step with
  | @enter item rest now running room next =>
    have hrest := hnext next
    refine .of_eq ?_
    rw [System.admitNext, admitUpTo, if_pos room, next]
    dsimp only
    split <;> exact hrest
  | refuse now running first => exact onCompletion_spares kept now _ _
  | handle now going settled first => exact onCompletion_spares kept now _ _
  | strand now aborted silent left => exact onCompletion_spares kept now _ _
  | drop aborted silent none next =>
    intro dir hmem
    rw [← hnext next]
    exact dropItem_spares kept _ _ dir hmem
  | finish now running settled done =>
    exact (finish_told now y.state).1.spares fun dir => List.not_mem_nil
  | conclude now aborted silent none empty =>
    exact (finish_told now y.state).1.spares fun dir => List.not_mem_nil
  | observe running => exact .of_eq rfl
  | receive waits free => exact .of_eq rfl
  | complete busy => exact .of_eq rfl
  | report done room => exact .of_eq rfl
  | lose => exact .of_eq rfl
  | cancel running settled => exact .of_eq rfl
  | abort draining => exact .of_eq rfl

theorem Trace.spares {fragments : FragmentSet} {workers : Nat} {es : List Event} {y : System}
    (run : Trace r fragments workers es y) (dir : Path) : .release dir ∉ y.state.effects := by
  induction run with
  | start =>
    have htold := (start_quiet r fragments).told
    exact fun hmem => List.not_mem_nil (htold.spares (fun dir => List.not_mem_nil) dir hmem)
  | step run next ih => exact fun hmem => ih (next.spares kept dir hmem)

end

end Run
end TaskGen
