import TaskGen.Proofs.Coverage
import TaskGen.Proofs.Run.Records

/-!
What the loop and the workers look up for the items of a run is always there.  An abstract task is
made for a class, and a task for a member of the class of its abstract task, so both are found as
long as the classes stay as they are.  A further attempt is for the same task.

Main statement: `lookups_of_trace`.
-/

namespace TaskGen
namespace Run

open State

/-- The class of the item is there, and a task is for one of its members. -/
def Known (classes : RequirementClasses) : WorkItem → Prop
  | .abstractTask t => ∃ c, Dict.find? classes t.id.classKey = some c
  | .task t => ∃ c, Dict.find? classes t.id.classKey = some c ∧ t.id.requirement ∈ c.identifiers

/-! ### What the loop queues -/

section
variable {r : Run} {s : State} {item : WorkItem}

theorem known_of_live_start (wf : r.classes.WellFormed) {fragments : FragmentSet}
    (h : item ∈ (r.start fragments).live) : Known r.classes item := by
  rw [live_start, Multiset.mem_coe, List.mem_map] at h
  obtain ⟨t, ht, rfl⟩ := h
  obtain ⟨p, -, hp⟩ := List.mem_flatMap.1 ht
  obtain ⟨c, hc, rfl⟩ := List.mem_map.1 hp
  obtain ⟨q, hq, rfl⟩ := List.mem_map.1 hc
  refine ⟨q.2, ?_⟩
  show Dict.find? r.classes q.2.key = some q.2
  rw [wf.keyed q hq]
  exact Dict.find?_of_mem wf.ordered.nodup_keys hq

/-- The tasks of an abstract task are for the members of its class. -/
theorem of_mem_constructed {id : AbstractTaskId} {c : RequirementClass} {models : List EnvModel}
    {task : TaskId × Path} (h : task ∈ constructed id c models) :
    task.1.classKey = id.classKey ∧ task.1.requirement ∈ c.identifiers := by
  obtain ⟨m, -, hm⟩ := List.mem_flatMap.1 h
  obtain ⟨q, hq, rfl⟩ := List.mem_map.1 hm
  exact ⟨rfl, hq⟩

theorem of_live_onAbstract {t : AbstractTask} {models : Except String (List EnvModel)}
    (h : item ∈ (r.onAbstract t models s).live) : item ∈ s.live ∨ Known r.classes item := by
  cases hclass : Dict.find? r.classes t.id.classKey with
  | none =>
    rw [onAbstract, hclass] at h
    exact .inl h
  | some c =>
    by_cases hnil : modelsOf models = []
    · rw [(onAbstract_aside_of_nil r t s hclass hnil).live_eq] at h
      exact .inl h
    · rw [(onAbstract_aside_of_ne_nil r t s hclass hnil).live_eq, State.live,
        unadmitted_withTasks, Multiset.mem_add, Multiset.mem_add, Multiset.mem_coe] at h
      rcases h with (hwaits | hnew) | hunderWay
      · exact .inl (Multiset.mem_add.2 (.inl hwaits))
      · obtain ⟨task, htask, rfl⟩ := List.mem_map.1 hnew
        obtain ⟨hkey, hrequirement⟩ := of_mem_constructed htask
        refine .inr ⟨c, ?_, hrequirement⟩
        show Dict.find? r.classes task.1.classKey = some c
        rw [hkey]
        exact hclass
      · exact .inl (Multiset.mem_add.2 (.inr hunderWay))

/-- A further attempt is for the same task. -/
theorem of_live_onTask {t : Task} {solution : Solution}
    (h : item ∈ (r.onTask t solution s).live) :
    item ∈ s.live ∨ ∃ attempt limits, item = .task { t with attempt, limits } := by
  rcases onTask_cases r t solution s with ⟨status, governor, -, haside⟩ |
    ⟨attempt, limits, governor, -, heq⟩
  · rw [haside.live_eq] at h
    exact .inl h
  · rw [heq, live_queueRetry, Multiset.mem_cons] at h
    rcases h with hnew | hold
    · exact .inr ⟨attempt, limits, hnew⟩
    · exact .inl hold

theorem of_live_leave? {key : ItemKey} {f : InFlight} {s' : State}
    (left : s.leave? key = some (f, s')) (h : item ∈ s'.live) : item ∈ s.live := by
  obtain ⟨g, -, heq⟩ := Option.map_eq_some_iff.1 left
  cases heq
  have hunderWay : (s.without key).underWay ≤ s.underWay :=
    Multiset.coe_le.2 (List.filter_sublist.map _).subperm
  exact Multiset.mem_of_le (add_le_add (le_refl s.unadmitted) hunderWay) h

theorem known_of_onCompletion {now : Duration} {c : Completion}
    (known : ∀ item ∈ s.live, Known r.classes item) (own : Known r.classes c.item)
    (h : item ∈ (r.onCompletion now c s).live) : Known r.classes item := by
  unfold onCompletion at h
  cases hleft : s.leave? c.key with
  | none =>
    rw [hleft] at h
    exact known item h
  | some p =>
    obtain ⟨f, left⟩ := p
    rw [hleft] at h
    cases c with
    | abstractTask t models =>
      rcases of_live_onAbstract h with hold | hnew
      · exact known item (of_live_leave? hleft hold)
      · exact hnew
    | task t solution =>
      rcases of_live_onTask h with hold | ⟨attempt, limits, rfl⟩
      · exact known item (of_live_leave? hleft hold)
      · exact own

theorem of_live_enter {now : Duration} (item' : WorkItem)
    (h : item ∈ (s.enter item' now).live) : item = item' ∨ item ∈ s.live := by
  rw [State.live, Multiset.mem_add] at h
  rcases h with hwaits | hunderWay
  · exact .inr (Multiset.mem_add.2 (.inl hwaits))
  · obtain ⟨p, hp, rfl⟩ := List.mem_map.1 (Multiset.mem_coe.1 hunderWay)
    rcases List.mem_append.1 hp with hold | hnew
    · refine .inr (Multiset.mem_add.2 (.inr ?_))
      exact Multiset.mem_coe.2 (List.mem_map_of_mem (List.mem_filter.1 hold).1)
    · rw [List.mem_singleton.1 hnew]
      exact .inl rfl

end

/-! ### One step -/

structure AllKnown (classes : RequirementClasses) (y : System) : Prop where
  live : ∀ item ∈ y.state.live, Known classes item
  channel : ∀ item ∈ y.channel.items, Known classes item
  hands : ∀ hand ∈ y.hands, ∀ item ∈ hand.items, Known classes item
  results : ∀ c ∈ y.results, Known classes c.item
  refused : ∀ c ∈ y.refused, Known classes c.item

theorem items_of_send {channel channel' : Channel} {item : WorkItem}
    (h : channel.send item = .taken channel') : channel'.items = channel.items ++ [item] := by
  unfold Channel.send at h
  split at h
  · cases h
  · split at h
    · cases h
      rfl
    · cases h

section
variable {classes : RequirementClasses} {s rest : State} {item : WorkItem}

theorem known_of_next? (next : s.next? = some (item, rest))
    (live : ∀ item ∈ s.live, Known classes item) :
    Known classes item ∧ ∀ other ∈ rest.live, Known classes other := by
  rw [live_of_next? next] at live
  exact ⟨live item (Multiset.mem_cons_self _ _),
    fun other hother => live other (Multiset.mem_cons_of_mem hother)⟩

theorem known_of_enter (known : Known classes item) (live : ∀ item ∈ s.live, Known classes item)
    (now : Duration) : ∀ other ∈ (s.enter item now).live, Known classes other := by
  intro other hother
  rcases of_live_enter item hother with rfl | hother
  · exact known
  · exact live other hother

theorem live_cons_backlog (s : State) (item : WorkItem) :
    State.live { s with backlog := item :: s.backlog } = item ::ₘ s.live := by
  rw [State.live, State.live, ← Multiset.cons_add]
  congr 1

end

/-- What is admitted was waiting. -/
theorem known_of_admitUpTo {classes : RequirementClasses} (limit : Nat) (now : Duration) (n : Nat)
    {s : State} {channel : Channel} (live : ∀ item ∈ s.live, Known classes item)
    (sent : ∀ item ∈ channel.items, Known classes item) :
    (∀ item ∈ (admitUpTo limit now n s channel).state.live, Known classes item) ∧
      (∀ item ∈ (admitUpTo limit now n s channel).channel.items, Known classes item) ∧
      ∀ c ∈ (admitUpTo limit now n s channel).refused, Known classes c.item := by
  induction n generalizing s channel with
  | zero => exact ⟨live, sent, by simp [admitUpTo]⟩
  | succ n ih =>
    rw [admitUpTo]
    by_cases hroom : s.inFlight.length < limit
    · rw [if_pos hroom]
      cases hnext : s.next? with
      | none => exact ⟨live, sent, by simp⟩
      | some p =>
        obtain ⟨item, rest⟩ := p
        obtain ⟨hitem, hrest⟩ := known_of_next? hnext live
        have hentered := known_of_enter hitem hrest now
        dsimp only
        cases hsend : channel.send item with
        | taken c =>
          apply ih hentered
          rw [items_of_send hsend, List.forall_mem_append]
          exact ⟨sent, List.forall_mem_singleton.2 hitem⟩
        | full =>
          refine ⟨?_, sent, by simp⟩
          rw [live_cons_backlog, Multiset.forall_mem_cons]
          exact ⟨hitem, hrest⟩
        | refused =>
          obtain ⟨hstate, hchannel, hrefused⟩ := ih hentered sent
          refine ⟨hstate, hchannel, ?_⟩
          rw [List.forall_mem_cons, Completion.item_failed]
          exact ⟨hitem, hrefused⟩
    · rw [if_neg hroom]
      exact ⟨live, sent, by simp⟩

theorem Step.allKnown {r : Run} {y y' : System} {e : Event} (step : Step r y e y')
    (known : AllKnown r.classes y) : AllKnown r.classes y' := by
  cases step with
  | enter now running room next =>
    obtain ⟨hlive, hchannel, hrefused⟩ :=
      known_of_admitUpTo r.limit now 1 known.live known.channel
    refine ⟨hlive, hchannel, known.hands, known.results, fun c hc => ?_⟩
    exact (List.mem_append.1 hc).elim (known.refused c) (hrefused c)
  | observe running => exact ⟨known.live, known.channel, known.hands, known.results, known.refused⟩
  | @receive item rest before after waits free =>
    have hitems := known.channel
    have hhands := known.hands
    rw [waits, List.forall_mem_cons] at hitems
    rw [free, List.forall_mem_append, List.forall_mem_cons] at hhands
    refine ⟨known.live, hitems.2, ?_, known.results, known.refused⟩
    rw [List.forall_mem_append, List.forall_mem_cons]
    exact ⟨hhands.1, List.forall_mem_singleton.2 hitems.1, hhands.2.2⟩
  | @complete c before after busy =>
    have hhands := known.hands
    rw [busy, List.forall_mem_append, List.forall_mem_cons] at hhands
    refine ⟨known.live, known.channel, ?_, known.results, known.refused⟩
    rw [List.forall_mem_append, List.forall_mem_cons]
    exact hhands
  | @report c before after done room =>
    have hhands := known.hands
    rw [done, List.forall_mem_append, List.forall_mem_cons] at hhands
    refine ⟨known.live, known.channel, ?_, ?_, known.refused⟩
    · rw [List.forall_mem_append, List.forall_mem_cons]
      exact ⟨hhands.1, by simp [Hand.items], hhands.2.2⟩
    · rw [List.forall_mem_append]
      exact ⟨known.results, List.forall_mem_singleton.2 (List.forall_mem_singleton.1 hhands.2.1)⟩
  | lose => exact ⟨known.live, by simp [System.withoutWorkers], by simp [System.withoutWorkers],
      known.results, known.refused⟩
  | refuse now running first =>
    have hrefused := known.refused
    rw [first, List.forall_mem_cons] at hrefused
    exact ⟨fun item => known_of_onCompletion known.live hrefused.1, known.channel, known.hands,
      known.results, hrefused.2⟩
  | handle now going settled first =>
    have hresults := known.results
    rw [first, List.forall_mem_cons] at hresults
    exact ⟨fun item => known_of_onCompletion known.live hresults.1, known.channel, known.hands,
      hresults.2, known.refused⟩
  | cancel running settled =>
    exact ⟨known.live, known.channel, known.hands, known.results, known.refused⟩
  | abort draining => exact ⟨known.live, by simp [System.withoutWorkers],
      by simp [System.withoutWorkers], known.results, known.refused⟩
  | @strand p now aborted silent left =>
    have hitem : Known r.classes p.2.item := by
      apply known.live
      apply Multiset.mem_add.2
      exact .inr (Multiset.mem_coe.2 (List.mem_map_of_mem left))
    refine ⟨fun item => known_of_onCompletion known.live ?_, known.channel, known.hands,
      known.results, known.refused⟩
    rw [Completion.item_failed]
    exact hitem
  | @drop item rest aborted silent none next =>
    refine ⟨?_, known.channel, known.hands, known.results, known.refused⟩
    rw [(dropItem_live r item rest).1]
    exact (known_of_next? next known.live).2
  | finish now running settled done =>
    refine ⟨?_, known.channel, known.hands, known.results, known.refused⟩
    rw [finish_live]
    exact known.live
  | conclude now aborted silent none empty =>
    refine ⟨?_, known.channel, known.hands, known.results, known.refused⟩
    rw [finish_live]
    exact known.live

/-- Nothing unknown ever gets into a run. -/
theorem Trace.allKnown {r : Run} (wf : r.classes.WellFormed) {fragments : FragmentSet}
    {workers : Nat} {es : List Event} {y : System} (run : Trace r fragments workers es y) :
    AllKnown r.classes y := by
  induction run with
  | start =>
    refine ⟨fun item => known_of_live_start wf, ?_, ?_, ?_, ?_⟩ <;>
      simp [System.start, Run.channel, Hand.items]
  | step run next ih => exact next.allKnown ih

theorem AllKnown.of_mem {classes : RequirementClasses} {y : System} (known : AllKnown classes y)
    {item : WorkItem} (h : item ∈ y.state.live + y.outside) : Known classes item := by
  simp only [System.outside, Multiset.mem_add, Multiset.mem_coe, List.mem_flatMap,
    List.mem_map] at h
  rcases h with hlive | ((hchannel | ⟨hand, hhand, hitem⟩) | ⟨c, hc, rfl⟩) | ⟨c, hc, rfl⟩
  · exact known.live item hlive
  · exact known.channel item hchannel
  · exact known.hands hand hhand item hitem
  · exact known.results c hc
  · exact known.refused c hc

/-! ### What is found -/

structure AbstractFound (r : Run) (t : AbstractTask) (c : RequirementClass) : Prop where
  found : Dict.find? r.classes t.id.classKey = some c
  keyed : c.key = t.id.classKey
  /-- A worker finds the class, and it lacks no runner. -/
  generated : ∀ {σ : Type} (k : Worker σ), k.classes = r.classes →
    k.registry.ensureCovers r.classes = .ok () →
      k.generate t = (do
        let models ← (EnvModels.generate k.registry k.workspace t c).attempt
        pure (models.mapError StageError.message)) ∧
      EnvModels.Generates k.registry k.workspace t c
  /-- The loop finds the class that the answer is for. -/
  dealt : ∀ models s, r.onAbstract t models s =
    if (modelsOf models).isEmpty then r.failClass t.id c s.withAbstract
    else fanOut t.id c (modelsOf models) s.withAbstract

/-- Whatever is looked up for a task is there.  What is found is the one requirement with this
identifier. -/
structure TaskFound (r : Run) (rs : List Requirement) (t : Task) (q : Requirement) : Prop where
  found : ∃ c, Dict.find? r.classes t.id.classKey = some c ∧ c.member? t.id.requirement = some q
  identifier : q.identifier = t.id.requirement
  given : q ∈ rs
  only : ∀ q' ∈ rs, q'.identifier = t.id.requirement → q' = q
  /-- A worker finds the requirement, and it lacks no runner. -/
  prepared : ∀ {σ : Type} (k : Worker σ), k.classes = r.classes →
    k.registry.ensureCovers r.classes = .ok () →
      k.prepare t = (k.prepareWith t q.ownStages).mapError .stage ∧ k.Prepares t q ∧
      FailsWith (Worker.Supplied k.registry (Worker.planned k.workspace t q.ownStages)) (k.solve t)

structure Lookups (r : Run) (rs : List Requirement) (y : System) : Prop where
  abstractTask : ∀ t, .abstractTask t ∈ y.state.live + y.outside → ∃ c, AbstractFound r t c
  task : ∀ t, .task t ∈ y.state.live + y.outside → ∃ q, TaskFound r rs t q
  /-- If the look at the start fails, a stage of a member has no runner. -/
  uncovered : ∀ {Runner : Type} (registry : Registry Runner) (e : StageError),
    registry.ensureCovers r.classes = .error e →
      ∃ q ∈ r.classes.requirements, ∃ c ∈ q.pipeline, registry c.stage = none ∧
        e = .noRunner c.stage

section
variable {r : Run} {digest : List ConfiguredStage → String} {rs : List Requirement}

theorem mem_requirements {classes : RequirementClasses} {key : String} {c : RequirementClass}
    (found : Dict.find? classes key = some c) {q : Requirement} (h : q ∈ c.members) :
    q ∈ classes.requirements :=
  List.mem_flatMap.2 ⟨c, List.mem_map.2 ⟨(key, c), Dict.mem_of_find? found, rfl⟩, h⟩

theorem abstractFound_of_find? (wf : r.classes.WellFormed) {t : AbstractTask}
    {c : RequirementClass} (found : Dict.find? r.classes t.id.classKey = some c) :
    AbstractFound r t c where
  found
  keyed := wf.keyed _ (Dict.mem_of_find? found)
  generated k classes covers := by
    have hpilot := mem_requirements found (q := c.pilot) List.mem_cons_self
    constructor
    · rw [Worker.generate, classes, found]
    · apply EnvModels.generates_of_covered
      exact Registry.ensureCovers_eq_ok_iff.1 covers c.pilot hpilot
  dealt models s := by
    by_cases hnil : modelsOf models = []
    · rw [onAbstract_of_nil r t s found hnil, if_pos (by simp [hnil])]
    · rw [onAbstract_of_ne_nil r t s found hnil, if_neg (by simpa using hnil)]

/-- The member that is found is the requirement itself. -/
theorem member?_eq_some {c : RequirementClass} (members : c.identifiers.Nodup) {q : Requirement}
    (h : q ∈ c.members) : c.member? q.identifier = some q := by
  cases hfind : c.member? q.identifier with
  | none =>
    have hne := List.find?_eq_none.1 hfind q h
    simp at hne
  | some q' =>
    have hidentifier := @List.find?_some _ _ _ _ hfind
    rw [beq_iff_eq] at hidentifier
    rw [List.inj_on_of_nodup_map members (List.mem_of_find?_eq_some hfind) h hidentifier]

theorem exists_taskFound (classes : r.classes = RequirementClasses.classifyWith digest rs)
    (distinct : (rs.map (·.identifier)).Nodup) {t : Task} {c : RequirementClass}
    (found : Dict.find? r.classes t.id.classKey = some c)
    (known : t.id.requirement ∈ c.identifiers) : ∃ q, TaskFound r rs t q := by
  obtain ⟨q, hq, hidentifier⟩ := List.mem_map.1 known
  have hmem := Dict.mem_of_find? found
  have hstems := RequirementClasses.classifyWith_stems digest rs _ (classes ▸ hmem)
  have hwf := RequirementClasses.WellFormed.of_eq classes distinct
  have hgiven : q ∈ rs := hstems.members.subset hq
  have hmember : c.member? t.id.requirement = some q := by
    rw [← hidentifier]
    exact member?_eq_some (hwf.distinct _ hmem) hq
  refine ⟨q, ⟨c, found, hmember⟩, hidentifier, hgiven, fun q' hq' h => ?_, fun k hk covers => ?_⟩
  · exact List.inj_on_of_nodup_map distinct hq' hgiven (h.trans hidentifier.symm)
  · have hfound : k.requirement? t.id = some q := by
      rw [Worker.requirement?, hk, found]
      exact hmember
    have hprepares := Worker.prepares_of_covered
      (Registry.ensureCovers_eq_ok_iff.1 covers q (mem_requirements found hq)) t
    exact ⟨Worker.prepare_eq hfound, hprepares, Worker.failsWith_solve hfound hprepares⟩

/-- Whatever the workers do and however a run ends, the class of every item is found, and the
requirement of every task.  There is a runner for each of its stages, if there was one for each
stage at the start. -/
theorem lookups_of_trace (classes : r.classes = RequirementClasses.classifyWith digest rs)
    (distinct : (rs.map (·.identifier)).Nodup) {fragments : FragmentSet} {workers : Nat}
    {es : List Event} {y : System} (run : Trace r fragments workers es y) : Lookups r rs y := by
  have hwf := RequirementClasses.WellFormed.of_eq classes distinct
  have hknown := run.allKnown hwf
  refine ⟨fun t ht => ?_, fun t ht => ?_, fun registry e h => Registry.of_ensureCovers_eq_error h⟩
  · obtain ⟨c, hc⟩ := hknown.of_mem ht
    exact ⟨c, abstractFound_of_find? hwf hc⟩
  · obtain ⟨c, hc, hrequirement⟩ := hknown.of_mem ht
    exact exists_taskFound classes distinct hc hrequirement

end

/-- A model has been found, and the first attempt at its task waits. -/
theorem lookups_of_sample :
    ∃ es y, Trace (sample 1 true) [("f", ⟨"f.json"⟩)] 1 es y ∧
      .task ⟨⟨"f", "alloc", "m", "alloc"⟩, 0, .standard, ⟨"m.json"⟩⟩ ∈ y.state.live + y.outside ∧
      (Registry.empty.register .requirementModel Pipeline.idle :
        Registry (Runner Unit)).ensureCovers (sample 1 true).classes = .ok () ∧
      Lookups (sample 1 true) [⟨"alloc", [⟨.requirementModel, []⟩]⟩] y := by
  have modelled := @Trace.turn (sample 1 true) [("f", ⟨"f.json"⟩)] 1 _ []
    (.abstractTask ⟨⟨"f", "alloc"⟩, ⟨"f.json"⟩⟩ (.ok [⟨"m", ⟨"m"⟩, ⟨"m.json"⟩⟩])) _ _ .start rfl
    (by decide) ⟨1⟩
  refine ⟨_, _, modelled, ?_, ?_, ?_⟩
  · apply Multiset.mem_add.2
    apply Or.inl
    apply Multiset.mem_add.2
    exact .inl (List.mem_singleton.2 rfl)
  · rfl
  · exact @lookups_of_trace _ fingerprint _ rfl (by decide) _ _ _ _ modelled

end Run
end TaskGen
