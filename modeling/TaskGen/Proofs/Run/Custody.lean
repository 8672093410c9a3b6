import TaskGen.Proofs.Run.Turnover

/-!
Where an item is while it is under way: on its way to a worker, in the hands of a worker, or
on its way back.  As long as there are workers it is in one of these places and in no other,
so the limit on the items under way is one on what the channels hold as well.
-/

namespace TaskGen
namespace Run

open State

/-! ### What is outside the loop -/

namespace System

/-- The items that are in the channels or in the hands of the workers. -/
def outside (y : System) : Multiset WorkItem :=
  ↑y.channel.items + ↑(y.hands.flatMap Hand.items) + ↑(y.results.map (·.item)) +
    ↑(y.refused.map (·.item))

structure Sound (r : Run) (y : System) : Prop where
  state : y.state.Sound
  capacity : y.channel.capacity = r.limit
  bounded : y.state.inFlight.length ≤ r.limit
  /-- Whatever is outside is known to be under way. -/
  known : y.outside ≤ y.state.underWay
  whole : y.channel.closed = false → y.outside = y.state.underWay
  accepted : y.channel.closed = false → y.refused = []
  settled : y.phase ≠ .running → y.refused = []
  stopped : y.phase = .aborted → y.hands = [] ∧ y.channel.items = []

variable {r : Run} {y : System}

theorem items_hands (before after : List Hand) (hand : Hand) :
    (↑((before ++ hand :: after).flatMap Hand.items) : Multiset WorkItem) =
      ↑hand.items + ↑((before ++ after).flatMap Hand.items) := by
  rw [List.flatMap_append, List.flatMap_cons, List.flatMap_append, ← Multiset.coe_add,
    ← Multiset.coe_add, ← Multiset.coe_add]
  abel

theorem card_outside (y : System) :
    y.outside.card = y.channel.items.length + (y.hands.flatMap Hand.items).length +
      y.results.length + y.refused.length := by
  simp only [outside, Multiset.card_add, Multiset.coe_card, List.length_map]

theorem card_underWay (s : State) : s.underWay.card = s.inFlight.length := by
  simp [underWay]

/-- The channels never hold more than what is under way. -/
theorem Sound.card_le (sound : y.Sound r) : y.outside.card ≤ y.state.inFlight.length := by
  rw [← card_underWay]
  exact Multiset.card_le_card sound.known

/-- As long as more items may be admitted there is room for them in the channel. -/
theorem Sound.send_eq (sound : y.Sound r) (opened : y.channel.closed = false)
    (room : y.state.inFlight.length < r.limit) (item : WorkItem) :
    y.channel.send item = .taken { y.channel with items := y.channel.items ++ [item] } := by
  have hcard := sound.card_le
  rw [card_outside] at hcard
  have hroom : y.channel.items.length < y.channel.capacity := by
    rw [sound.capacity]
    omega
  rw [Channel.send, if_neg (by simp [opened]), if_pos hroom]

/-- A completion that came back is one of an item under way. -/
theorem Sound.mem_of_results (sound : y.Sound r) {c : Completion} (h : c ∈ y.results) :
    c.item ∈ y.state.underWay := by
  refine Multiset.mem_of_le sound.known ?_
  rw [outside, Multiset.mem_add, Multiset.mem_add]
  exact .inl (.inr (Multiset.mem_coe.2 (List.mem_map_of_mem h)))

theorem Sound.mem_of_refused (sound : y.Sound r) {c : Completion} (h : c ∈ y.refused) :
    c.item ∈ y.state.underWay := by
  refine Multiset.mem_of_le sound.known ?_
  rw [outside, Multiset.mem_add]
  exact .inr (Multiset.mem_coe.2 (List.mem_map_of_mem h))

/-! ### One step -/

section
variable {y' : System} (sound : y.Sound r)
include sound

/-- An item may go from one place outside the loop to another. -/
theorem Sound.pass (state : y'.state = y.state) (outside : y'.outside = y.outside)
    (capacity : y'.channel.capacity = y.channel.capacity)
    (closed : y'.channel.closed = y.channel.closed) (refused : y'.refused = y.refused)
    (phase : y'.phase = y.phase) (busy : y.phase ≠ .aborted) : y'.Sound r where
  state := by
    rw [state]
    exact sound.state
  capacity := capacity.trans sound.capacity
  bounded := by
    rw [state]
    exact sound.bounded
  known := by
    rw [outside, state]
    exact sound.known
  whole h := by
    rw [outside, state]
    exact sound.whole (closed.symm.trans h)
  accepted h := refused.trans (sound.accepted (closed.symm.trans h))
  settled h := by
    rw [phase] at h
    exact refused.trans (sound.settled h)
  stopped h := absurd (phase.symm.trans h) busy

/-- A completion that is dealt with is not outside any more, and its item is not under way any
more. -/
theorem Sound.deal (wf : r.classes.WellFormed) {c : Completion} (distinct : c.DistinctModels)
    (now : Duration) (outside : y.outside = c.item ::ₘ y'.outside)
    (state : y'.state = r.onCompletion now c y.state) (channel : y'.channel = y.channel)
    (hands : y'.hands = y.hands) (phase : y'.phase = y.phase)
    (refused : y.refused = [] → y'.refused = []) : y'.Sound r := by
  have hmem : c.item ∈ y.state.underWay := by
    refine Multiset.mem_of_le sound.known ?_
    rw [outside]
    exact Multiset.mem_cons_self _ _
  obtain ⟨hsound, hunderWay⟩ := onCompletion_sound wf now distinct sound.state hmem
  rw [← state] at hsound hunderWay
  have hlength := congrArg Multiset.card hunderWay
  rw [Multiset.card_cons, card_underWay, card_underWay] at hlength
  have hbounded := sound.bounded
  have hknown := sound.known
  rw [outside, hunderWay] at hknown
  refine ⟨hsound, ?_, by omega, ?_, ?_, ?_, ?_, ?_⟩
  · rw [channel]
    exact sound.capacity
  · exact (Multiset.cons_le_cons_iff _).1 hknown
  · intro hopen
    rw [channel] at hopen
    have hwhole := sound.whole hopen
    rw [outside, hunderWay] at hwhole
    exact (Multiset.cons_inj_right _).1 hwhole
  · intro hopen
    rw [channel] at hopen
    exact refused (sound.accepted hopen)
  · intro hphase
    rw [phase] at hphase
    exact refused (sound.settled hphase)
  · intro hphase
    rw [phase] at hphase
    rw [hands, channel]
    exact sound.stopped hphase

/-- The item that comes next joins those under way.  It goes into the channel or, if there are
no workers, comes back at once. -/
theorem Sound.admitNext_cases {item : WorkItem} {rest : State}
    (next : y.state.next? = some (item, rest)) (room : y.state.inFlight.length < r.limit)
    (now : Duration) :
    (y.channel.closed = true ∧ y.admitNext r now =
      { y with
        state := rest.enter item now
        refused := y.refused ++ [.failed item "pending-work channel closed"] }) ∨
    (y.channel.closed = false ∧ y.admitNext r now =
      { y with
        state := rest.enter item now
        channel := { y.channel with items := y.channel.items ++ [item] } }) := by
  by_cases hclosed : y.channel.closed = true
  · have hsend : y.channel.send item = .refused := by rw [Channel.send, if_pos hclosed]
    refine .inl ⟨hclosed, ?_⟩
    rw [admitNext, admitUpTo, if_pos room, next]
    simp only [hsend]
    rfl
  · have hopen : y.channel.closed = false := by simpa using hclosed
    refine .inr ⟨hopen, ?_⟩
    rw [admitNext, admitUpTo, if_pos room, next]
    simp only [sound.send_eq hopen room item]
    rw [admitUpTo, List.append_nil]

theorem Sound.admitNext_state {item : WorkItem} {rest : State}
    (next : y.state.next? = some (item, rest)) (room : y.state.inFlight.length < r.limit)
    (now : Duration) : (y.admitNext r now).state = rest.enter item now := by
  rcases sound.admitNext_cases next room now with ⟨_, heq⟩ | ⟨_, heq⟩
  · rw [heq]
  · rw [heq]

theorem Sound.enter {item : WorkItem} {rest : State} (next : y.state.next? = some (item, rest))
    (room : y.state.inFlight.length < r.limit) (running : y.phase = .running) (now : Duration) :
    (y.admitNext r now).Sound r := by
  obtain ⟨hsound, hinFlight, -⟩ := enter_sound sound.state next now
  have hunderWay : (rest.enter item now).underWay = y.state.underWay + {item} := by
    rw [underWay, hinFlight, List.map_append, ← Multiset.coe_add, List.map_singleton,
      Multiset.coe_singleton, underWay]
  have hbounded : (rest.enter item now).inFlight.length ≤ r.limit := by
    rw [hinFlight, List.length_append, List.length_singleton]
    omega
  have hrunning : y.phase ≠ .aborted := by
    rw [running]
    exact Phase.noConfusion
  rcases sound.admitNext_cases next room now with ⟨hclosed, heq⟩ | ⟨hopen, heq⟩
  · have houtside : (y.admitNext r now).outside = y.outside + {item} := by
      rw [heq]
      simp only [outside, List.map_append, ← Multiset.coe_add, List.map_singleton,
        Completion.item_failed, Multiset.coe_singleton]
      abel
    rw [heq] at houtside ⊢
    refine ⟨hsound, sound.capacity, hbounded, ?_, fun h => ?_, fun h => ?_,
      fun h => absurd running h, fun h => absurd h hrunning⟩
    · rw [houtside, hunderWay]
      exact add_le_add sound.known (le_refl _)
    · exact Bool.noConfusion (hclosed.symm.trans h)
    · exact Bool.noConfusion (hclosed.symm.trans h)
  · -- Everything under way was outside before, and the item joins both.
    have houtside : (y.admitNext r now).outside = y.outside + {item} := by
      rw [heq]
      simp only [outside, ← Multiset.coe_add, Multiset.coe_singleton]
      abel
    rw [sound.whole hopen, ← hunderWay] at houtside
    rw [heq] at houtside ⊢
    exact ⟨hsound, sound.capacity, hbounded, le_of_eq houtside, fun _ => houtside,
      fun _ => sound.accepted hopen, fun _ => sound.accepted hopen, fun h => absurd h hrunning⟩

/-- The loop may change its state and its phase as long as the same items are under way. -/
theorem Sound.keep {s : State} {phase : Phase} (state : s.Sound)
    (inFlight : s.inFlight = y.state.inFlight) (settled : phase ≠ .running → y.refused = [])
    (stopped : phase = .aborted → y.hands = [] ∧ y.channel.items = []) :
    System.Sound r { y with state := s, phase } where
  state := state
  capacity := sound.capacity
  bounded := inFlight ▸ sound.bounded
  known := by
    rw [underWay, inFlight]
    exact sound.known
  whole h := by
    rw [underWay, inFlight]
    exact sound.whole h
  accepted := sound.accepted
  settled := settled
  stopped := stopped

theorem Sound.outside_eq_zero (aborted : y.phase = .aborted) (silent : y.results = []) :
    y.outside = 0 := by
  obtain ⟨hhands, hitems⟩ := sound.stopped aborted
  have hrefused : y.refused = [] := by
    refine sound.settled ?_
    rw [aborted]
    exact Phase.noConfusion
  simp [outside, hhands, hitems, silent, hrefused]

/-- Whatever was outside is lost without workers. -/
theorem Sound.withoutWorkers : (y.withoutWorkers).Sound r where
  state := sound.state
  capacity := sound.capacity
  bounded := sound.bounded
  known := by
    refine le_trans ?_ sound.known
    have hlost : y.outside =
        y.withoutWorkers.outside + (↑y.channel.items + ↑(y.hands.flatMap Hand.items)) := by
      simp only [outside, System.withoutWorkers, List.flatMap_nil, Multiset.coe_nil]
      abel
    rw [hlost]
    exact Multiset.le_add_right _ _
  whole h := Bool.noConfusion h
  accepted h := Bool.noConfusion h
  settled := sound.settled
  stopped _ := ⟨rfl, rfl⟩

end

end System

/-- Every step keeps what holds in every state of a run. -/
theorem Step.sound {r : Run} (wf : r.classes.WellFormed) {y y' : System} {e : Event}
    (step : Step r y e y') (distinct : ∀ c ∈ e.completion?, c.DistinctModels)
    (sound : y.Sound r) : y'.Sound r := by
  cases step with
  | enter now running room next => exact sound.enter next room running now
  | observe running =>
    exact sound.keep (s := y.observe.state) ⟨sound.state.keyed, sound.state.apart⟩ rfl sound.settled
      sound.stopped
  | @receive item rest before after waits free =>
    refine sound.pass rfl ?_ rfl rfl rfl rfl (fun h => ?_)
    · simp only [System.outside, waits, free, System.items_hands, Hand.items,
        ← Multiset.cons_coe, ← Multiset.singleton_add, Multiset.coe_nil]
      abel
    · have hnone := (sound.stopped h).2
      rw [waits] at hnone
      exact List.cons_ne_nil _ _ hnone
  | @complete c before after busy =>
    refine sound.pass rfl ?_ rfl rfl rfl rfl (fun h => ?_)
    · simp only [System.outside, busy, System.items_hands, Hand.items]
    · have hnone := (sound.stopped h).1
      rw [busy] at hnone
      simp at hnone
  | @report c before after done room =>
    refine sound.pass rfl ?_ rfl rfl rfl rfl (fun h => ?_)
    · simp only [System.outside, done, System.items_hands, Hand.items, List.map_append,
        List.map_singleton, ← Multiset.coe_add, Multiset.coe_nil]
      abel
    · have hnone := (sound.stopped h).1
      rw [done] at hnone
      simp at hnone
  | lose => exact sound.withoutWorkers
  | @refuse c rest now running first =>
    refine sound.deal wf (distinct c rfl) now ?_ rfl rfl rfl rfl (fun h => ?_)
    · simp only [System.outside, first, List.map_cons, ← Multiset.cons_coe, Multiset.add_cons]
    · rw [first] at h
      exact absurd h (List.cons_ne_nil _ _)
  | @handle c rest now going settled first =>
    refine sound.deal wf (distinct c rfl) now ?_ rfl rfl rfl rfl (fun h => h)
    simp only [System.outside, first, List.map_cons, ← Multiset.cons_coe, Multiset.add_cons,
      Multiset.cons_add]
  | cancel running settled =>
    exact sound.keep (s := beginCancel y.state) ⟨sound.state.keyed, sound.state.apart⟩ rfl
      (fun _ => settled) (fun h => Phase.noConfusion h)
  | abort draining =>
    have hlost := sound.withoutWorkers
    refine ⟨hlost.state, hlost.capacity, hlost.bounded, hlost.known, hlost.whole, hlost.accepted,
      fun _ => sound.settled ?_, fun _ => ⟨rfl, rfl⟩⟩
    rw [draining]
    exact Phase.noConfusion
  | @strand p now aborted silent left =>
    -- The workers are gone and the results are read, so nothing is outside any more.
    have houtside := sound.outside_eq_zero aborted silent
    have hmem : (Completion.failed p.2.item "aborted after shutdown grace period").item ∈
        y.state.underWay := by
      rw [Completion.item_failed]
      exact Multiset.mem_coe.2 (List.mem_map_of_mem left)
    obtain ⟨hsound, hunderWay⟩ := onCompletion_sound wf now (distinct _ rfl) sound.state hmem
    have hlength := congrArg Multiset.card hunderWay
    rw [Multiset.card_cons, System.card_underWay, System.card_underWay] at hlength
    have hbounded := sound.bounded
    refine ⟨hsound, sound.capacity, ?_, ?_, fun h => ?_, sound.accepted, sound.settled,
      sound.stopped⟩
    · dsimp only
      omega
    · exact houtside ▸ Multiset.zero_le _
    · rw [← sound.whole h, houtside] at hmem
      exact absurd hmem (Multiset.notMem_zero _)
  | @drop item rest aborted silent none next =>
    have hinFlight : (r.dropItem item rest).inFlight = y.state.inFlight := by
      obtain ⟨_, _, _, hrest⟩ := unadmitted_of_next? next
      rw [(dropItem_live r item rest).2, hrest]
    exact sound.keep (dropItem_sound r item (sound.state.of_next? next)) hinFlight
      sound.settled sound.stopped
  | finish now running settled done =>
    exact sound.keep (finish_sound now sound.state) (finish_inFlight now _) (fun _ => settled)
      (fun h => Phase.noConfusion h)
  | conclude now aborted silent none empty =>
    refine sound.keep (finish_sound now sound.state) (finish_inFlight now _) (fun _ => ?_)
      (fun h => Phase.noConfusion h)
    refine sound.settled ?_
    rw [aborted]
    exact Phase.noConfusion

/-- Whatever completion a step deals with is one of an item under way. -/
theorem Step.state_of_completion {r : Run} {y y' : System} {e : Event} (step : Step r y e y')
    (sound : y.Sound r) {c : Completion} (h : e.completion? = some c) :
    c.item ∈ y.state.underWay ∧ ∃ now, y'.state = r.onCompletion now c y.state := by
  cases step with
  | refuse now running first =>
    cases h
    refine ⟨sound.mem_of_refused ?_, now, rfl⟩
    rw [first]
    exact List.mem_cons_self
  | handle now going settled first =>
    cases h
    refine ⟨sound.mem_of_results ?_, now, rfl⟩
    rw [first]
    exact List.mem_cons_self
  | strand now aborted silent left =>
    cases h
    refine ⟨?_, now, rfl⟩
    rw [Completion.item_failed]
    exact Multiset.mem_coe.2 (List.mem_map_of_mem left)
  | _ => cases h

/-! ### Every state -/

theorem System.start_sound {r : Run} (wf : r.classes.WellFormed) {fragments : FragmentSet}
    (ordered : Dict.Ordered fragments) (workers : Nat) :
    (System.start r fragments workers).Sound r := by
  have hinFlight : (r.start fragments).inFlight = [] := (start_aside r fragments).inFlight_eq
  have hidle : (List.replicate workers Hand.idle).flatMap Hand.items = [] := by
    rw [List.flatMap_eq_nil_iff]
    intro hand hhand
    rw [List.eq_of_mem_replicate hhand]
    rfl
  have houtside : (System.start r fragments workers).outside = 0 := by
    simp [System.outside, System.start, Run.channel, hidle]
  have hunderWay : (System.start r fragments workers).state.underWay = 0 := by
    rw [System.start, underWay, hinFlight]
    rfl
  refine ⟨Run.start_sound wf ordered, rfl, ?_, ?_, fun _ => houtside.trans hunderWay.symm,
    fun _ => rfl, fun _ => rfl, fun h => Phase.noConfusion h⟩
  · rw [System.start, hinFlight]
    exact Nat.zero_le _
  · rw [houtside]
    exact Multiset.zero_le _

namespace Trace

variable {r : Run} {fragments : FragmentSet} {workers : Nat} {es : List Event} {y : System}

theorem distinct_handled (run : Trace r fragments workers es y)
    (answers : Answers Completion.DistinctModels es) : ∀ c ∈ handled es, c.DistinctModels := by
  intro c hc
  rcases run.of_handled c hc with hanswer | ⟨item, reason, rfl⟩
  · exact answers c hanswer
  · exact Completion.distinctModels_failed item reason

/-- What the loop deals with next was answered before. -/
theorem distinct_next (run : Trace r fragments workers es y) {e : Event} {y' : System}
    (answers : Answers Completion.DistinctModels es) (next : Step r y e y') :
    ∀ c ∈ e.completion?, c.DistinctModels := by
  intro c hc
  have hhandled : c ∈ handled (es ++ [e]) := by
    rw [handled_append]
    exact List.mem_append_right _ (Option.mem_toList.2 hc)
  rcases (run.step next).of_handled c hhandled with hanswer | ⟨item, reason, rfl⟩
  · rcases List.mem_append.1 hanswer with hbefore | hlast
    · exact answers c hbefore
    · rw [← List.mem_singleton.1 hlast] at hc
      cases hc
  · exact Completion.distinctModels_failed item reason

/-- What holds at the beginning and is kept by every step holds in every run. -/
theorem keeps {P : List Event → System → Prop} (run : Trace r fragments workers es y)
    (distinct : ∀ c ∈ handled es, c.DistinctModels) (start : P [] (.start r fragments workers))
    (step : ∀ {es e y y'}, Trace r fragments workers es y →
      (∀ c ∈ handled es, c.DistinctModels) → (∀ c ∈ e.completion?, c.DistinctModels) →
      Step r y e y' → P es y → P (es ++ [e]) y') : P es y := by
  induction run with
  | start => exact start
  | @step es e y y' run next ih =>
    rw [handled_append] at distinct
    have hbefore : ∀ c ∈ handled es, c.DistinctModels :=
      fun c hc => distinct c (List.mem_append_left _ hc)
    have hlast : ∀ c ∈ e.completion?, c.DistinctModels :=
      fun c hc => distinct c (List.mem_append_right _ (Option.mem_toList.2 hc))
    exact step run hbefore hlast next (ih hbefore)

theorem sound (wf : r.classes.WellFormed) (ordered : Dict.Ordered fragments)
    (run : Trace r fragments workers es y) (distinct : ∀ c ∈ handled es, c.DistinctModels) :
    y.Sound r :=
  run.keeps distinct (System.start_sound wf ordered workers)
    fun _ _ last next sound => next.sound wf last sound

theorem exists_entered_nil (run : Trace r fragments workers es y) :
    ∃ entered, handled entered = [] ∧ (∀ c, .complete c ∉ entered) ∧
      Trace r fragments workers (es ++ entered) y := by
  refine ⟨[], rfl, fun c => List.not_mem_nil, ?_⟩
  rw [List.append_nil]
  exact run

/-- Admitting several items is admitting one after the other, and it ends when there is no room
or nothing waits. -/
theorem admitting (wf : r.classes.WellFormed) (ordered : Dict.Ordered fragments) (now : Duration)
    (n : Nat) (run : Trace r fragments workers es y)
    (distinct : ∀ c ∈ handled es, c.DistinctModels) (running : y.phase = .running)
    (opened : y.channel.closed = false) :
    let a := admitUpTo r.limit now n y.state y.channel
    a.refused = [] ∧ a.channel.closed = false ∧
      (y.state.waiting ≤ n → a.state.inFlight.length < r.limit → a.state.waiting = 0) ∧
      ∃ entered, handled entered = [] ∧ (∀ c, .complete c ∉ entered) ∧
        Trace r fragments workers (es ++ entered)
          { y with state := a.state, channel := a.channel } := by
  induction n generalizing es y with
  | zero => exact ⟨rfl, opened, fun hwaiting _ => Nat.le_zero.1 hwaiting, run.exists_entered_nil⟩
  | succ n ih =>
    rw [admitUpTo]
    by_cases hroom : y.state.inFlight.length < r.limit
    · rw [if_pos hroom]
      cases hnext : y.state.next? with
      | none =>
        have hwaiting := (State.next?_eq_none_iff y.state).1 hnext
        exact ⟨rfl, opened, fun _ _ => hwaiting, run.exists_entered_nil⟩
      | some p =>
        obtain ⟨item, rest⟩ := p
        have hsound := run.sound wf ordered distinct
        have hstep := run.step (.enter now running hroom hnext)
        have hhandled : handled (es ++ [.enter item now]) = handled es := by
          rw [handled_append]
          exact List.append_nil _
        have hwaiting := State.waiting_of_next? hnext
        rcases hsound.admitNext_cases hnext hroom now with ⟨hclosed, _⟩ | ⟨_, heq⟩
        · rw [opened] at hclosed
          cases hclosed
        · rw [heq] at hstep
          rw [← hhandled] at distinct
          simp only [hsound.send_eq opened hroom item]
          obtain ⟨hrefused, hopen, hfull, entered, hsilent, hcomplete, hrun⟩ :=
            ih hstep distinct running opened
          refine ⟨hrefused, hopen, fun hle => hfull ?_, .enter item now :: entered, hsilent,
            fun c hc => ?_, ?_⟩
          · show rest.waiting ≤ n
            omega
          · exact hcomplete c ((List.mem_cons.1 hc).resolve_left Event.noConfusion)
          · rw [List.append_cons]
            exact hrun
    · rw [if_neg hroom]
      exact ⟨rfl, opened, fun _ hless => absurd hless hroom, run.exists_entered_nil⟩

end Trace

/-- Who has what, as long as there are workers that can take items. -/
structure System.Custody (r : Run) (y : System) : Prop where
  /-- The keys of the items under way are those of the items outside the loop. -/
  whole : (y.state.inFlight.map Prod.fst).Perm
    (y.channel.items.map WorkItem.key ++ (y.hands.flatMap Hand.items).map WorkItem.key ++
      y.results.map Completion.key)
  /-- No key occurs twice, be it among the items under way or among those that wait. -/
  distinct : (y.state.inFlight.map Prod.fst ++ y.state.backlog.map WorkItem.key ++
    y.state.retries.map WorkItem.key).Nodup
  bounded : y.state.inFlight.length ≤ r.limit
  /-- There is room in the channel for whatever may be admitted. -/
  room : y.state.inFlight.length < r.limit → ∀ item, ∃ c, y.channel.send item = .taken c
  /-- The item that is admitted next takes nobody's place. -/
  fresh : ∀ item rest, y.state.next? = some (item, rest) →
    y.state.inFlight.lookup item.key = none
  /-- A worker with a completion can send it at once. -/
  prompt : ∀ c, .reporting c ∈ y.hands → y.results.length < r.limit
  /-- The loop knows the item of every completion that comes back. -/
  known : ∀ c ∈ y.results, ∃ f s, y.state.leave? c.key = some (f, s)

theorem System.Sound.custody {r : Run} {y : System} (sound : y.Sound r)
    (opened : y.channel.closed = false) : y.Custody r := by
  have hwhole := sound.whole opened
  have hrefused := sound.accepted opened
  have hcard := sound.card_le
  rw [System.card_outside] at hcard
  have hbounded := sound.bounded
  refine ⟨?_, ?_, hbounded, fun hroom item => ?_, fun item rest hnext => ?_, fun c hc => ?_,
    fun c hc => ?_⟩
  · have hkeys := congrArg (Multiset.map WorkItem.key) hwhole
    rw [sound.state.underWay_keys, System.outside, hrefused] at hkeys
    have hresults : (y.results.map (·.item)).map WorkItem.key = y.results.map Completion.key := by
      rw [List.map_map]
      exact List.map_congr_left fun c _ => c.key_item
    rw [← Multiset.coe_eq_coe, ← hkeys, List.map_nil, Multiset.coe_nil, add_zero,
      Multiset.coe_add, Multiset.coe_add, Multiset.map_coe, List.map_append, List.map_append,
      hresults]
  · have hnodup := sound.state.apart.nodup
    rw [keys_eq, sound.state.underWay_keys, unadmitted, Multiset.map_add, Multiset.map_coe,
      Multiset.map_coe, add_comm, Multiset.coe_add, Multiset.coe_add, Multiset.coe_nodup] at hnodup
    rw [List.append_assoc]
    exact hnodup
  · exact ⟨_, sound.send_eq opened hroom item⟩
  · rw [List.lookup_eq_none_iff]
    intro p hp
    have hne : item.key ≠ p.1 := fun h =>
      sound.state.next_fresh hnext (h ▸ List.mem_map_of_mem hp)
    simpa using hne
  · -- The item of the worker is under way as well, so the results are not all that is.
    obtain ⟨before, after, hhands⟩ := List.append_of_mem hc
    have hlength : ((before ++ Hand.reporting c :: after).flatMap Hand.items).length =
        ((before ++ after).flatMap Hand.items).length + 1 := by
      have hitems := congrArg Multiset.card (System.items_hands before after (.reporting c))
      rw [Multiset.card_add, Multiset.coe_card, Multiset.coe_card, Multiset.coe_card] at hitems
      rw [hitems, Nat.add_comm]
      rfl
    rw [hhands, hlength] at hcard
    omega
  · obtain ⟨⟨f, hleave⟩, -⟩ := sound.state.leave? (sound.mem_of_results hc)
    exact ⟨f, _, hleave⟩

/-- As long as there are workers the items under way are those in the channels and in the
hands of the workers, each once.  So there is always room for what is sent, and what comes
back is always awaited. -/
theorem custody_of_trace {r : Run} {digest : List ConfiguredStage → String}
    {rs : List Requirement} (classes : r.classes = RequirementClasses.classifyWith digest rs)
    (distinct : (rs.map (·.identifier)).Nodup) {fragments : FragmentSet}
    (ordered : Dict.Ordered fragments) {workers : Nat} {es : List Event} {y : System}
    (run : Trace r fragments workers es y) (answers : Answers Completion.DistinctModels es)
    (opened : y.channel.closed = false) : y.Custody r := by
  have hwf := RequirementClasses.WellFormed.of_eq classes distinct
  exact (run.sound hwf ordered (run.distinct_handled answers)).custody opened

theorem custody_of_sample :
    ∃ es y, Trace (sample 1 true) [("f", ⟨"f.json"⟩)] 1 es y ∧ y.results.length = 1 ∧
      y.Custody (sample 1 true) := by
  let t : AbstractTask := ⟨⟨"f", "alloc"⟩, ⟨"f.json"⟩⟩
  let m : EnvModel := ⟨"m", ⟨"m"⟩, ⟨"m.json"⟩⟩
  have entered := (@Trace.start (sample 1 true) [("f", ⟨"f.json"⟩)] 1).step
    (@Step.enter _ _ (.abstractTask t) _ ⟨0⟩ rfl (by decide) rfl)
  have received := entered.step (@Step.receive _ _ (.abstractTask t) _ [] [] rfl rfl)
  have completed := received.step (@Step.complete _ _ (.abstractTask t (.ok [m])) [] [] rfl)
  have reported := completed.step (@Step.report _ _ _ [] [] rfl (by decide))
  refine ⟨_, _, reported, rfl, ?_⟩
  refine @custody_of_trace _ fingerprint _ rfl (by decide) _ ?_ _ _ _ reported ?_ rfl
  · exact List.pairwise_singleton _ _
  · intro c hc
    simp at hc
    subst hc
    exact List.nodup_singleton _

end Run
end TaskGen
