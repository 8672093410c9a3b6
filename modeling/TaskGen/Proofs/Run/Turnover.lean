import TaskGen.Proofs.Run.Keys

/-!
What takes the place of an item that is dealt with: nothing, a further attempt at the same
task, or the tasks of an abstract task.  In each case the keys stay apart.
-/

namespace TaskGen

def Completion.DistinctModels : Completion → Prop
  | .abstractTask _ models => ((Run.modelsOf models).map (·.id)).Nodup
  | .task _ _ => True

theorem Completion.distinctModels_failed (item : WorkItem) (reason : String) :
    (Completion.failed item reason).DistinctModels := by
  cases item with
  | abstractTask t => exact List.nodup_nil
  | task t => exact trivial

namespace Run

open State

/-- What is done with a completion once its item is not under way any more. -/
def deal (r : Run) (c : Completion) (s : State) : State :=
  match c with
  | .abstractTask t models => r.onAbstract t models s
  | .task t solution => r.onTask t solution s

def State.withMetrics (s : State) (metrics : Metrics) : State :=
  { s with report := { s.report with metrics } }

theorem onCompletion_eq_deal (r : Run) (now : Duration) {c : Completion} {s : State}
    (sound : s.Sound) (h : c.item ∈ s.underWay) :
    ∃ metrics, r.onCompletion now c s = r.deal c ((s.without c.key).withMetrics metrics) := by
  obtain ⟨⟨f, hleave⟩, -⟩ := sound.leave? h
  unfold onCompletion
  rw [hleave]
  cases c with
  | abstractTask t models => exact ⟨_, rfl⟩
  | task t solution => exact ⟨_, rfl⟩

/-! ### One completion -/

/-- A class that is found has different members. -/
theorem nodup_identifiers {r : Run} (wf : r.classes.WellFormed) {key : String}
    {c : RequirementClass} (h : Dict.find? r.classes key = some c) : c.identifiers.Nodup :=
  wf.distinct _ (Dict.mem_of_find? h)

theorem live_withTasks (s : State) (id : AbstractTaskId) (c : RequirementClass)
    (models : List EnvModel) :
    (s.withTasks id c models).live =
      s.live + ↑((constructed id c models).map (firstAttempt s.governor)) := by
  have hbacklog : (s.withTasks id c models).backlog =
      s.backlog ++ (constructed id c models).map (firstAttempt s.governor) := rfl
  have hretries : (s.withTasks id c models).retries = s.retries := rfl
  have hunderWay : (s.withTasks id c models).underWay = s.underWay := rfl
  rw [live, live, unadmitted, unadmitted, hbacklog, hretries, hunderWay, ← Multiset.coe_add]
  abel

theorem map_key_firstAttempt (g : Governor) (tasks : List (TaskId × Path)) :
    (tasks.map (firstAttempt g)).map WorkItem.key =
      (tasks.map Prod.fst).map ItemKey.task := by
  rw [List.map_map, List.map_map]
  rfl

/-- The items that take the place of one whose completion is dealt with. -/
theorem deal_successors {r : Run} (wf : r.classes.WellFormed) {c : Completion}
    (distinct : c.DistinctModels) (s : State) :
    ∃ successors : Multiset WorkItem,
      (r.deal c s).live = s.live + successors ∧ (r.deal c s).inFlight = s.inFlight ∧
      ∀ ks, KeysApart (c.key ::ₘ ks) → KeysApart (ks + successors.map WorkItem.key) := by
  have hnone : ∀ ks, KeysApart (c.key ::ₘ ks) →
      KeysApart (ks + (0 : Multiset WorkItem).map WorkItem.key) := by
    intro ks h
    rw [Multiset.map_zero, add_zero]
    exact h.of_cons
  cases c with
  | abstractTask t models =>
    cases hclass : Dict.find? r.classes t.id.classKey with
    | none =>
      refine ⟨0, ?_, ?_, hnone⟩
      · rw [add_zero, deal, onAbstract, hclass]
        rfl
      · rw [deal, onAbstract, hclass]
    | some cls =>
      by_cases hmodels : modelsOf models = []
      · have haside := onAbstract_aside_of_nil r t s hclass hmodels
        refine ⟨0, ?_, haside.inFlight_eq, hnone⟩
        rw [add_zero]
        exact haside.live_eq
      · -- One attempt at each task.  The tasks differ, as the models and the members do.
        have haside := onAbstract_aside_of_ne_nil r t s hclass hmodels
        refine ⟨_, haside.live_eq.trans (live_withTasks ..), haside.inFlight_eq, ?_⟩
        intro ks h
        rw [Multiset.map_coe, map_key_firstAttempt]
        refine h.fan ?_ (fun id hid => abstractId_of_mem_constructed hid)
        exact nodup_constructed t.id (nodup_identifiers wf hclass) distinct
  | task t solution =>
    rcases onTask_cases r t solution s with
      ⟨status, governor, _, haside⟩ | ⟨attempt, limits, governor, _, heq⟩
    · refine ⟨0, ?_, haside.inFlight_eq, hnone⟩
      rw [add_zero]
      exact haside.live_eq
    · -- The further attempt has the key of the one that came back.
      refine ⟨{.task { t with attempt, limits }}, ?_, ?_, ?_⟩
      · rw [deal, heq, live_queueRetry, add_comm s.live, Multiset.singleton_add]
        rfl
      · rw [deal, heq, inFlight_queueRetry]
        rfl
      · intro ks h
        rw [Multiset.map_singleton, add_comm ks, Multiset.singleton_add]
        exact h

/-- Nothing but the item of the completion leaves those under way, and nothing joins them. -/
theorem onCompletion_inFlight {r : Run} (wf : r.classes.WellFormed) (now : Duration)
    {c : Completion} (distinct : c.DistinctModels) {s : State} (sound : s.Sound)
    (h : c.item ∈ s.underWay) :
    (r.onCompletion now c s).inFlight = (s.without c.key).inFlight := by
  obtain ⟨metrics, heq⟩ := onCompletion_eq_deal r now sound h
  obtain ⟨_, -, hinFlight, -⟩ :=
    deal_successors wf distinct ((s.without c.key).withMetrics metrics)
  rw [heq, hinFlight]
  rfl

/-- The state stays sound when a completion is dealt with, and only its item leaves those under
way. -/
theorem onCompletion_sound {r : Run} (wf : r.classes.WellFormed) (now : Duration)
    {c : Completion} (distinct : c.DistinctModels) {s : State} (sound : s.Sound)
    (h : c.item ∈ s.underWay) :
    (r.onCompletion now c s).Sound ∧
      s.underWay = c.item ::ₘ (r.onCompletion now c s).underWay := by
  obtain ⟨metrics, heq⟩ := onCompletion_eq_deal r now sound h
  obtain ⟨successors, hlive, -, hapart⟩ :=
    deal_successors wf distinct ((s.without c.key).withMetrics metrics)
  have hinFlight := onCompletion_inFlight wf now distinct sound h
  refine ⟨⟨?_, ?_⟩, ?_⟩
  · rw [hinFlight]
    exact (sound.without c.key).keyed
  · have hkeys := sound.apart
    rw [sound.keys_eq_cons h] at hkeys
    rw [heq, keys, hlive, Multiset.map_add]
    exact hapart _ hkeys
  · rw [(sound.leave? h).2, underWay, underWay, hinFlight]

/-! ### An item that is given up -/

theorem unadmitted_of_next? {s rest : State} {item : WorkItem}
    (h : s.next? = some (item, rest)) :
    s.unadmitted = item ::ₘ rest.unadmitted ∧
      ∃ backlog retries, rest = { s with backlog, retries } := by
  unfold next? at h
  split at h
  · next front hfront =>
    cases h
    refine ⟨?_, _, _, rfl⟩
    rw [unadmitted, hfront, ← Multiset.cons_coe, Multiset.cons_add]
    rfl
  · next front hback hfront =>
    cases h
    refine ⟨?_, _, _, rfl⟩
    rw [unadmitted, hfront, ← Multiset.cons_coe, Multiset.add_cons]
    rfl
  · cases h

theorem live_of_next? {s rest : State} {item : WorkItem} (h : s.next? = some (item, rest)) :
    s.live = item ::ₘ rest.live := by
  obtain ⟨hunadmitted, _, _, rfl⟩ := unadmitted_of_next? h
  rw [live, hunadmitted, Multiset.cons_add]
  rfl

theorem State.Sound.of_next? {s rest : State} (sound : s.Sound) {item : WorkItem}
    (h : s.next? = some (item, rest)) : rest.Sound := by
  have hlive := live_of_next? h
  obtain ⟨_, backlog, retries, rfl⟩ := unadmitted_of_next? h
  refine ⟨sound.keyed, sound.apart.of_le ?_⟩
  rw [keys, keys, hlive, Multiset.map_cons]
  exact Multiset.le_cons_self _ _

/-- Nothing takes the place of an item that is given up. -/
theorem dropItem_live (r : Run) (item : WorkItem) (s : State) :
    (r.dropItem item s).live = s.live ∧ (r.dropItem item s).inFlight = s.inFlight := by
  cases item with
  | abstractTask t =>
    rw [dropItem]
    cases hclass : Dict.find? r.classes t.id.classKey with
    | none =>
      rw [onAbstract, hclass]
      exact ⟨rfl, rfl⟩
    | some cls =>
      have haside : Aside (s.withFailedClass t.id cls)
          (r.onAbstract t (.error "cancelled before admission") s) :=
        onAbstract_aside_of_nil r t s hclass rfl
      exact ⟨haside.live_eq, haside.inFlight_eq⟩
  | task t =>
    have haside := finishTask_aside r t .failed t.attempt s
    exact ⟨haside.live_eq, haside.inFlight_eq⟩

theorem dropItem_sound (r : Run) (item : WorkItem) {s : State} (sound : s.Sound) :
    (r.dropItem item s).Sound := by
  obtain ⟨hlive, hinFlight⟩ := dropItem_live r item s
  refine ⟨?_, ?_⟩
  · rw [hinFlight]
    exact sound.keyed
  · rw [keys, hlive]
    exact sound.apart

theorem inFlight_foldl_dropItem (r : Run) (items : List WorkItem) (s : State) :
    (items.foldl (fun s item => r.dropItem item s) s).inFlight = s.inFlight := by
  induction items generalizing s with
  | nil => rfl
  | cons item items ih => exact (ih (r.dropItem item s)).trans (dropItem_live r item s).2

/-! ### The last state -/

theorem finish_inFlight (now : Duration) (s : State) : (finish now s).inFlight = s.inFlight := by
  obtain ⟨_, _, _, _, h⟩ := finish_eq now s
  rw [h]

theorem finish_sound (now : Duration) {s : State} (sound : s.Sound) : (finish now s).Sound := by
  obtain ⟨_, _, _, _, h⟩ := finish_eq now s
  rw [h]
  exact ⟨sound.keyed, sound.apart⟩

/-! ### An item that is admitted -/

theorem enter_inFlight_of_fresh {s : State} {item : WorkItem} {now : Duration}
    (fresh : item.key ∉ s.inFlight.map Prod.fst) :
    (s.enter item now).inFlight = s.inFlight ++ [(item.key, ⟨item, now⟩)] := by
  have hkeep : (s.inFlight.filter fun p => p.1 ≠ item.key) = s.inFlight := by
    rw [List.filter_eq_self]
    intro p hp
    have hne : p.1 ≠ item.key := fun h => fresh (h ▸ List.mem_map_of_mem hp)
    simpa using hne
  rw [State.enter]
  exact congrArg (· ++ _) hkeep

/-- An item that waits is not under way. -/
theorem State.Sound.next_fresh {s rest : State} (sound : s.Sound) {item : WorkItem}
    (h : s.next? = some (item, rest)) : item.key ∉ s.inFlight.map Prod.fst := by
  have hnodup := sound.apart.nodup
  rw [keys, live, (unadmitted_of_next? h).1, Multiset.cons_add, Multiset.map_cons,
    Multiset.nodup_cons, Multiset.map_add, sound.underWay_keys, Multiset.mem_add] at hnodup
  intro hmem
  exact hnodup.1 (.inr (Multiset.mem_coe.2 hmem))

/-- The item that comes next joins those under way, and nothing else changes. -/
theorem enter_sound {s rest : State} (sound : s.Sound) {item : WorkItem}
    (h : s.next? = some (item, rest)) (now : Duration) :
    (rest.enter item now).Sound ∧
      (rest.enter item now).inFlight = s.inFlight ++ [(item.key, ⟨item, now⟩)] ∧
      (rest.enter item now).live = s.live := by
  have hfresh := sound.next_fresh h
  obtain ⟨hunadmitted, backlog, retries, hrest⟩ := unadmitted_of_next? h
  have hinFlight : (rest.enter item now).inFlight = s.inFlight ++ [(item.key, ⟨item, now⟩)] := by
    have hsame : rest.inFlight = s.inFlight := by rw [hrest]
    rw [← hsame] at hfresh ⊢
    exact enter_inFlight_of_fresh hfresh
  have hlive : (rest.enter item now).live = s.live := by
    have hwaiting : (rest.enter item now).unadmitted = rest.unadmitted := rfl
    rw [live, live, hwaiting, hunadmitted, underWay, hinFlight, List.map_append,
      ← Multiset.coe_add, List.map_singleton, Multiset.coe_singleton, ← add_assoc,
      Multiset.cons_add, ← Multiset.singleton_add, underWay]
    abel
  refine ⟨⟨?_, ?_⟩, hinFlight, hlive⟩
  · rw [hinFlight]
    intro p hp
    rcases List.mem_append.1 hp with hold | hnew
    · exact sound.keyed p hold
    · rw [List.mem_singleton.1 hnew]
  · rw [keys, hlive]
    exact sound.apart

end Run
end TaskGen
