import TaskGen.Proofs.Run.Accounting
import TaskGen.Run.Schedule

/-!
The loop with one worker that takes the items in their order is one of the traces.  So what
holds of every trace holds of the loop as it is run.
-/

namespace TaskGen

variable {σ : Type}

/-! ### The worker -/

/-- A worker that is done with an item has a completion of that item. -/
theorem Worker.item_of_process {k : Worker σ} {item : WorkItem} {w v : World σ} {c : Completion}
    (h : k.process item w = (.done c, v)) : c.item = item := by
  cases item with
  | abstractTask t =>
    obtain ⟨models, u, _, hc⟩ := Act.exists_of_andThen_done h
    cases hc
    rfl
  | task t =>
    obtain ⟨result, u, _, hc⟩ := Act.exists_of_andThen_done h
    cases result with
    | ok solution =>
      cases hc
      rfl
    | error e =>
      cases hc
      rfl

theorem Worker.item_of_serve {k : Worker σ} {item : WorkItem} {w v : World σ} {c : Completion}
    (h : k.serve item w = (some c, v)) : c.item = item := by
  unfold Worker.serve at h
  split at h
  · cases h
    exact Completion.item_failed item _
  · cases hprocess : k.process item w with
    | mk outcome u =>
      rw [hprocess] at h
      cases outcome with
      | done result =>
        cases h
        exact Worker.item_of_process hprocess
      | failed error => exact error.elim
      | panicked reason =>
        cases h
        exact Completion.item_failed item _
      | hung => cases h

namespace Run

open State

/-! ### What the loop comes to -/

/-- A state of a run with one worker that names the models of an abstract task differently. -/
def Reached (r : Run) (fragments : FragmentSet) (y : System) : Prop :=
  ∃ es, Trace r fragments 1 es y ∧ Answers Completion.DistinctModels es

namespace Reached

variable {r : Run} {fragments : FragmentSet} {y : System}

theorem start (r : Run) (fragments : FragmentSet) :
    Reached r fragments (.quiet r (r.start fragments) [.idle]) :=
  ⟨[], .start, fun _ h => absurd h List.not_mem_nil⟩

theorem step {y' : System} (h : Reached r fragments y) {e : Event} (next : Step r y e y')
    (silent : ∀ c, e ≠ .complete c) : Reached r fragments y' := by
  obtain ⟨es, run, answers⟩ := h
  refine ⟨_, run.step next, fun c hc => ?_⟩
  rcases List.mem_append.1 hc with hold | hlast
  · exact answers c hold
  · exact absurd (List.mem_singleton.1 hlast).symm (silent c)

theorem sound (h : Reached r fragments y) (wf : r.classes.WellFormed)
    (ordered : Dict.Ordered fragments) : y.Sound r := by
  obtain ⟨es, run, answers⟩ := h
  exact run.sound wf ordered (run.distinct_handled answers)

/-- The worker works on the item in front, and the loop deals with its completion. -/
theorem serve (h : Reached r fragments y) {c : Completion} {rest : List WorkItem}
    (waits : y.channel.items = c.item :: rest) (free : y.hands = [.idle])
    (none : y.results = []) (limit : 0 < r.limit) (going : y.phase ≠ .returned)
    (settled : y.refused = []) (distinct : c.DistinctModels) (now : Duration) :
    Reached r fragments
      { y with
        state := r.onCompletion now c y.state
        channel := { y.channel with items := rest } } := by
  obtain ⟨es, run, answers⟩ := h
  have hanswer := (run.serve waits free).answer rfl none limit going settled now
  rw [← free] at hanswer
  refine ⟨_, hanswer, fun c' hc' => ?_⟩
  simp only [List.append_assoc, List.mem_append, List.mem_cons, List.not_mem_nil, or_false,
    reduceCtorEq, false_or, Event.complete.injEq] at hc'
  rcases hc' with hold | rfl
  · exact answers c' hold
  · exact distinct

variable (wf : r.classes.WellFormed) (ordered : Dict.Ordered fragments)
include wf ordered

theorem admitting (now : Duration) (n : Nat) (h : Reached r fragments y)
    (running : y.phase = .running) (opened : y.channel.closed = false) :
    let a := admitUpTo r.limit now n y.state y.channel
    a.refused = [] ∧ a.channel.closed = false ∧
      Reached r fragments { y with state := a.state, channel := a.channel } := by
  obtain ⟨es, run, answers⟩ := h
  obtain ⟨hrefused, hopen, _, entered, _, hcomplete, hrun⟩ :=
    run.admitting wf ordered now n (run.distinct_handled answers) running opened
  refine ⟨hrefused, hopen, _, hrun, fun c hc => ?_⟩
  exact answers c ((List.mem_append.1 hc).resolve_right (hcomplete c))

theorem limit_pos (h : Reached r fragments y) {item : WorkItem} {rest : List WorkItem}
    (waits : y.channel.items = item :: rest) : 0 < r.limit := by
  have hsound := h.sound wf ordered
  have hcard := hsound.card_le
  have hbounded := hsound.bounded
  rw [System.card_outside, waits, List.length_cons] at hcard
  omega

/-! ### Giving up -/

theorem strand (now : Duration) (ps : List (ItemKey × InFlight)) (h : Reached r fragments y)
    (aborted : y.phase = .aborted) (silent : y.results = []) (left : y.state.inFlight = ps) :
    let s := ps.foldl (fun s p =>
      r.onCompletion now (.failed p.2.item "aborted after shutdown grace period") s) y.state
    s.inFlight = [] ∧ Reached r fragments { y with state := s } := by
  induction ps generalizing y with
  | nil => exact ⟨left, h⟩
  | cons p ps ih =>
    have hsound := (h.sound wf ordered).state
    have hp : p ∈ y.state.inFlight := by
      rw [left]
      exact List.mem_cons_self
    have hmem : (Completion.failed p.2.item "aborted after shutdown grace period").item ∈
        y.state.underWay := by
      rw [Completion.item_failed]
      exact Multiset.mem_coe.2 (List.mem_map_of_mem hp)
    have hrest : (r.onCompletion now (.failed p.2.item "aborted after shutdown grace period")
        y.state).inFlight = ps := by
      rw [onCompletion_inFlight wf now (Completion.distinctModels_failed _ _) hsound hmem,
        Completion.key_failed, ← hsound.keyed p hp, State.without, left,
        List.filter_cons_of_neg (by simp), List.filter_eq_self]
      intro q hq
      have hnodup := hsound.nodup_inFlight
      rw [left, List.map_cons, List.nodup_cons] at hnodup
      have hne : q.1 ≠ p.1 := fun heq => hnodup.1 (heq ▸ List.mem_map_of_mem hq)
      simpa using hne
    have hstep := h.step (.strand now aborted silent hp) (fun c => Event.noConfusion)
    exact ih hstep aborted silent hrest

omit wf ordered

section
variable (aborted : y.phase = .aborted) (silent : y.results = [])
include aborted silent

theorem drop {s : State} {item : WorkItem} {bs rs bs' rs' : List WorkItem}
    (h : Reached r fragments { y with state := s.withQueues bs rs }) (none : s.inFlight = [])
    (next : (s.withQueues bs rs).next? = some (item, s.withQueues bs' rs')) :
    Reached r fragments { y with state := (r.dropItem item s).withQueues bs' rs' } := by
  have hstep := h.step (.drop aborted silent none next) (fun c => Event.noConfusion)
  rw [dropItem_withQueues] at hstep
  exact hstep

theorem dropBacklog (bs rs : List WorkItem) {s : State}
    (h : Reached r fragments { y with state := s.withQueues bs rs }) (none : s.inFlight = []) :
    Reached r fragments
      { y with state := (bs.foldl (fun s item => r.dropItem item s) s).withQueues [] rs } := by
  induction bs generalizing s with
  | nil => exact h
  | cons item bs ih =>
    exact ih (drop aborted silent h none rfl) ((dropItem_live r item s).2.trans none)

theorem dropRetries (rs : List WorkItem) {s : State}
    (h : Reached r fragments { y with state := s.withQueues [] rs }) (none : s.inFlight = []) :
    Reached r fragments
      { y with state := (rs.foldl (fun s item => r.dropItem item s) s).withQueues [] [] } := by
  induction rs generalizing s with
  | nil => exact h
  | cons item rs ih =>
    exact ih (drop aborted silent h none rfl) ((dropItem_live r item s).2.trans none)

end

theorem dropWaiting (h : Reached r fragments y) (aborted : y.phase = .aborted)
    (silent : y.results = []) (none : y.state.inFlight = []) :
    (r.dropWaiting y.state).waiting = 0 ∧ (r.dropWaiting y.state).inFlight = [] ∧
      Reached r fragments { y with state := r.dropWaiting y.state } := by
  have hdrop : r.dropWaiting y.state =
      ((y.state.retries).foldl (fun s item => r.dropItem item s)
        (y.state.backlog.foldl (fun s item => r.dropItem item s) y.state)).withQueues [] [] := by
    rw [← List.foldl_append]
    exact foldl_dropItem_withQueues [] [] y.state r _
  -- The loop empties both queues before it gives up the items, a trace takes one at a time.
  have hbacklog := dropBacklog aborted silent y.state.backlog y.state.retries h none
  have hnone := (inFlight_foldl_dropItem r y.state.backlog y.state).trans none
  have hretries := dropRetries aborted silent y.state.retries hbacklog hnone
  rw [hdrop]
  exact ⟨rfl, (inFlight_foldl_dropItem r _ _).trans hnone, hretries⟩

end Reached

def Ends (r : Run) (fragments : FragmentSet) (s : State) : Prop :=
  ∀ now, ∃ y, Reached r fragments y ∧ y.phase = .returned ∧ y.state = Run.finish now s

section
variable {r : Run} {fragments : FragmentSet} {y : System} (wf : r.classes.WellFormed)
  (ordered : Dict.Ordered fragments)
include wf ordered

/-- After the workers are stopped the run ends with what is given up. -/
theorem ends_abandon (h : Reached r fragments y) (draining : y.phase = .draining)
    (silent : y.results = []) (w : World σ) :
    Ends r fragments (r.abandon y.state w).1 := by
  have haborted := h.step (.abort draining) (fun c => Event.noConfusion)
  obtain ⟨hnone, hstranded⟩ := haborted.strand wf ordered w.clock _ rfl silent rfl
  obtain ⟨hempty, hnone', hdropped⟩ := hstranded.dropWaiting rfl silent hnone
  intro now
  exact ⟨_, hdropped.step (.conclude now rfl silent hnone' hempty)
    (fun c => Event.noConfusion), rfl, rfl⟩

variable {k : Worker σ} (distinct : ∀ item w c v, k.serve item w = (some c, v) → c.DistinctModels)
include distinct

/-- While the run is drained the worker finishes what was admitted. -/
theorem exists_reached_drain (items : List WorkItem) (h : Reached r fragments y)
    (draining : y.phase = .draining) (waits : y.channel.items = items) (free : y.hands = [.idle])
    (none : y.results = []) (settled : y.refused = []) (w : World σ) :
    ∃ y', Reached r fragments y' ∧ y'.phase = .draining ∧ y'.results = [] ∧
      y'.state = (r.drain k items y.state w).1 := by
  induction items generalizing y w with
  | nil => exact ⟨y, h, draining, none, rfl⟩
  | cons item rest ih =>
    rw [drain]
    cases hserve : k.serve item w with
    | mk last v =>
      cases last with
      | none => exact ⟨y, h, draining, none, rfl⟩
      | some c =>
        have hitem := Worker.item_of_serve hserve
        have hgoing : y.phase ≠ .returned := by
          rw [draining]
          exact Phase.noConfusion
        have hserved := h.serve (hitem.symm ▸ waits) free none
          (h.limit_pos wf ordered waits) hgoing settled (distinct item w c v hserve) v.clock
        exact ih hserved draining rfl free none settled _

theorem ends_cancel {item : WorkItem} {rest : List WorkItem} (h : Reached r fragments y)
    (running : y.phase = .running) (waits : y.channel.items = item :: rest)
    (free : y.hands = [.idle]) (none : y.results = []) (settled : y.refused = [])
    {w v : World σ} {last : Option Completion} (hserve : k.serve item w = (last, v)) :
    Ends r fragments (r.cancel k last rest y.state v).1 := by
  have hcancelled := h.step (.cancel running settled) (fun c => Event.noConfusion)
  cases last with
  | none => exact ends_abandon wf ordered hcancelled rfl none v
  | some c =>
    rw [cancel]
    dsimp only
    split
    · have hitem := Worker.item_of_serve hserve
      have hserved := hcancelled.serve (hitem.symm ▸ waits) free none
        (h.limit_pos wf ordered waits) Phase.noConfusion settled (distinct item w c v hserve)
        v.clock
      obtain ⟨y', hdrained, hdraining, hnone, hstate⟩ :=
        exists_reached_drain wf ordered distinct rest hserved rfl rfl free none settled
          (r.handle (beginCancel y.state) c v).2
      have hends := ends_abandon wf ordered hdrained hdraining hnone
        (r.drain k rest (r.onCompletion v.clock c (beginCancel y.state))
          (r.handle (beginCancel y.state) c v).2).2
      rw [hstate] at hends
      exact hends
    · exact ends_abandon wf ordered hcancelled rfl none v

theorem ends_loop (turns : Nat) {s s' : State} {c : Channel} {w w' : World σ}
    (h : Reached r fragments ⟨.running, s, c, [.idle], [], []⟩) (opened : c.closed = false)
    (hloop : r.loop k turns s c w = some (s', w')) : Ends r fragments s' := by
  induction turns generalizing s c w with
  | zero => cases hloop
  | succ turns ih =>
    -- In one turn the loop admits what it can, and the worker serves the item in front.
    obtain ⟨hrefused, hopened, hadmitted⟩ := h.admitting wf ordered w.clock s.waiting rfl opened
    have hobserved := hadmitted.step (.observe rfl) (fun c => Event.noConfusion)
    rw [loop] at hloop
    have hhandled : r.handleAll (r.admitWaiting w.clock s c).state
        (r.admitWaiting w.clock s c).refused w = ((r.admitWaiting w.clock s c).state, w) := by
      have hnone : (r.admitWaiting w.clock s c).refused = [] := hrefused
      rw [hnone]
      rfl
    simp only [hhandled] at hloop
    split at hloop
    · next hdone =>
      cases hloop
      intro now
      exact ⟨_, hobserved.step (.finish now rfl rfl hdone) (fun c => Event.noConfusion), rfl, rfl⟩
    · split at hloop
      · cases hloop
      · next item rest hitems =>
        cases hserve : k.serve item w with
        | mk last v =>
          simp only [hserve] at hloop
          split at hloop
          · have hends : Ends r fragments
                (r.cancel k last rest (r.admitWaiting w.clock s c).state v).1 :=
              ends_cancel wf ordered distinct hobserved rfl hitems rfl rfl rfl hserve
            have hresult := congrArg Prod.fst (Option.some.inj hloop)
            rw [hresult] at hends
            exact hends
          · cases last with
            | none => cases hloop
            | some completion =>
              have hitem := Worker.item_of_serve hserve
              have hserved := hobserved.serve (hitem.symm ▸ hitems) rfl rfl
                (hobserved.limit_pos wf ordered hitems) Phase.noConfusion rfl
                (distinct item w completion v hserve) v.clock
              exact ih hserved hopened hloop

omit distinct in
theorem ends_stoppedEarly (w : World σ) :
    Ends r fragments (r.stoppedEarly (r.start fragments) w).1 := by
  have hstart := Reached.start r fragments
  unfold stoppedEarly
  split
  · next hdone =>
    intro now
    exact ⟨_, hstart.step (.finish now rfl rfl hdone) (fun c => Event.noConfusion), rfl, rfl⟩
  · exact ends_abandon wf ordered
      (hstart.step (.cancel rfl rfl) (fun c => Event.noConfusion)) rfl rfl w

/-- What comes out of the run of the fragments is what a trace comes to. -/
theorem exists_trace_of_runFragments {turns : Nat} {w w' : World σ} {s : State}
    (hrun : r.runFragments k turns fragments w = some (.ok s, w')) :
    ∃ es y, Trace r fragments 1 es y ∧ Answers Completion.DistinctModels es ∧
      y.phase = .returned ∧ y.state = s := by
  have hends : ∃ s', Ends r fragments s' ∧ s = Run.finish w'.clock s' := by
    unfold runFragments at hrun
    split at hrun
    · cases hrun
    · next files hfiles =>
      dsimp only at hrun
      by_cases hstopped : w.stopped.isSome = true
      · rw [if_pos hstopped] at hrun
        have hearly := @ends_stoppedEarly σ r fragments wf ordered { w with files }
        cases hrun
        exact ⟨_, hearly, rfl⟩
      · rw [if_neg hstopped] at hrun
        cases hloop : r.loop k turns (r.start fragments) r.channel { w with files } with
        | none =>
          rw [hloop] at hrun
          cases hrun
        | some p =>
          rw [hloop] at hrun
          cases hrun
          exact ⟨_, ends_loop wf ordered distinct turns (Reached.start r fragments) rfl hloop, rfl⟩
  obtain ⟨s', hends, hs⟩ := hends
  obtain ⟨y, ⟨es, run, answers⟩, hreturned, hstate⟩ := hends w'.clock
  exact ⟨es, y, run, answers, hreturned, hstate.trans hs.symm⟩

/-- So the report on all fragments is complete. -/
theorem complete_of_runFragments {turns : Nat} {w w' : World σ} {s : State}
    (hrun : r.runFragments k turns fragments w = some (.ok s, w')) :
    ∃ cs, Complete r fragments cs s.report := by
  obtain ⟨es, y, run, answers, hreturned, rfl⟩ :=
    exists_trace_of_runFragments wf ordered distinct hrun
  exact ⟨handled es, run.complete wf ordered answers hreturned⟩

end

end Run
end TaskGen
