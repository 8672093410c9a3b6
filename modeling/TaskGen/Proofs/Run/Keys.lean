import TaskGen.Proofs.Classification
import TaskGen.Proofs.Run.Dealing
import TaskGen.Proofs.Run.System

/-!
The keys of the items that have not come to their end.  No two items have the same key, so an
item that is taken from those under way is the only one that is taken.
-/

namespace TaskGen

/-- No key occurs twice, and a task has nothing to do while its abstract task is still to
come. -/
structure KeysApart (ks : Multiset ItemKey) : Prop where
  nodup : ks.Nodup
  ahead : ∀ id, .task id ∈ ks → .abstractTask id.abstractId ∉ ks

namespace KeysApart

variable {ks ks' : Multiset ItemKey}

theorem of_le (h : KeysApart ks) (hle : ks' ≤ ks) : KeysApart ks' where
  nodup := Multiset.nodup_of_le hle h.nodup
  ahead id hid habs := h.ahead id (Multiset.mem_of_le hle hid) (Multiset.mem_of_le hle habs)

theorem of_cons {k : ItemKey} (h : KeysApart (k ::ₘ ks)) : KeysApart ks :=
  h.of_le (Multiset.le_cons_self ks k)

/-- An abstract task may be replaced by tasks that come from it. -/
theorem fan {a : AbstractTaskId} (h : KeysApart (.abstractTask a ::ₘ ks)) {ids : List TaskId}
    (distinct : ids.Nodup) (own : ∀ id ∈ ids, id.abstractId = a) :
    KeysApart (ks + ↑(ids.map ItemKey.task)) := by
  have ha : ItemKey.abstractTask a ∉ ks := (Multiset.nodup_cons.1 h.nodup).1
  have hrest := h.of_cons
  have hnew : (ids.map ItemKey.task).Nodup := by
    refine distinct.map (fun i j hij => ?_)
    cases hij
    rfl
  constructor
  · rw [Multiset.nodup_add]
    refine ⟨hrest.nodup, Multiset.coe_nodup.2 hnew, ?_⟩
    rw [Multiset.disjoint_left]
    intro k hk hkid
    obtain ⟨id, hid, rfl⟩ := List.mem_map.1 (Multiset.mem_coe.1 hkid)
    refine h.ahead id (Multiset.mem_cons_of_mem hk) ?_
    rw [own id hid]
    exact Multiset.mem_cons_self _ _
  · intro id hid habs
    have habs' : ItemKey.abstractTask id.abstractId ∈ ks := by
      rcases Multiset.mem_add.1 habs with hks | hids
      · exact hks
      · obtain ⟨i, _, hi⟩ := List.mem_map.1 (Multiset.mem_coe.1 hids)
        cases hi
    rcases Multiset.mem_add.1 hid with hks | hids
    · exact hrest.ahead id hks habs'
    · obtain ⟨i, hi, hkey⟩ := List.mem_map.1 (Multiset.mem_coe.1 hids)
      cases hkey
      rw [own id hi] at habs'
      exact ha habs'

end KeysApart

namespace Run

open State

/-! ### The tasks of an abstract task -/

theorem nodup_flatMap_map {α β γ : Type} {f : α → β → γ} (inj : Function.Injective2 f)
    {as : List α} {bs : List β} (ha : as.Nodup) (hb : bs.Nodup) :
    (as.flatMap fun a => bs.map (f a)).Nodup := by
  have hproduct : (as.flatMap fun a => bs.map (f a)) =
      (as.product bs).map (Function.uncurry f) := by
    rw [List.product, List.map_flatMap]
    refine List.flatMap_congr (fun a _ => ?_)
    rw [List.map_map]
    rfl
  rw [hproduct]
  exact (ha.product hb).map inj.uncurry

theorem map_fst_constructed (id : AbstractTaskId) (c : RequirementClass)
    (models : List EnvModel) :
    (constructed id c models).map Prod.fst =
      (models.map (·.id)).flatMap fun m =>
        c.identifiers.map fun q => ⟨id.fragment, id.classKey, m, q⟩ := by
  induction models with
  | nil => rfl
  | cons m models ih =>
    simp only [constructed, List.flatMap_cons, List.map_append, List.map_cons, List.map_map] at ih ⊢
    rw [ih]
    rfl

theorem abstractId_of_mem_constructed {id : AbstractTaskId} {c : RequirementClass}
    {models : List EnvModel} {i : TaskId}
    (h : i ∈ (constructed id c models).map Prod.fst) : i.abstractId = id := by
  rw [map_fst_constructed] at h
  obtain ⟨m, _, hm⟩ := List.mem_flatMap.1 h
  obtain ⟨q, _, rfl⟩ := List.mem_map.1 hm
  rfl

/-- Distinct models and distinct members make distinct tasks. -/
theorem nodup_constructed (id : AbstractTaskId) {c : RequirementClass} {models : List EnvModel}
    (members : c.identifiers.Nodup) (distinct : (models.map (·.id)).Nodup) :
    ((constructed id c models).map Prod.fst).Nodup := by
  rw [map_fst_constructed]
  refine nodup_flatMap_map (fun m m' q q' h => ?_) distinct members
  cases h
  exact ⟨rfl, rfl⟩

/-! ### Items under way -/

namespace State

def without (s : State) (key : ItemKey) : State :=
  { s with inFlight := s.inFlight.filter fun p => p.1 ≠ key }

structure Sound (s : State) : Prop where
  keyed : ∀ p ∈ s.inFlight, p.1 = p.2.item.key
  apart : KeysApart s.keys

variable {s : State}

theorem keys_eq (s : State) :
    s.keys = s.unadmitted.map WorkItem.key + s.underWay.map WorkItem.key :=
  Multiset.map_add _ _ _

theorem Sound.underWay_keys (h : s.Sound) :
    s.underWay.map WorkItem.key = ↑(s.inFlight.map Prod.fst) := by
  rw [underWay, Multiset.map_coe, List.map_map, Multiset.coe_eq_coe]
  refine List.Perm.of_eq (List.map_congr_left (fun p hp => ?_))
  exact (h.keyed p hp).symm

theorem Sound.nodup_inFlight (h : s.Sound) : (s.inFlight.map Prod.fst).Nodup := by
  rw [← Multiset.coe_nodup, ← h.underWay_keys]
  refine Multiset.nodup_of_le ?_ h.apart.nodup
  rw [keys_eq]
  exact Multiset.le_add_left _ _

/-- The item of a completion is found, and nothing else goes with it. -/
theorem Sound.leave? (h : s.Sound) {c : Completion} (hmem : c.item ∈ s.underWay) :
    (∃ f, s.leave? c.key = some (f, s.without c.key)) ∧
      s.underWay = c.item ::ₘ (s.without c.key).underWay := by
  obtain ⟨p, hp, hitem⟩ := List.mem_map.1 (Multiset.mem_coe.1 hmem)
  obtain ⟨hlookup, before, after, hsplit, hfilter⟩ := Pairs.split_of_mem h.nodup_inFlight hp
  rw [h.keyed p hp] at hlookup hfilter
  rw [← c.key_item, ← hitem]
  refine ⟨⟨p.2, ?_⟩, ?_⟩
  · rw [State.leave?, hlookup]
    rfl
  · simp only [underWay, without, hfilter]
    rw [hsplit, List.map_append, List.map_cons, List.map_append]
    exact Multiset.coe_eq_coe.2 List.perm_middle

theorem Sound.without (h : s.Sound) (key : ItemKey) : (s.without key).Sound where
  keyed p hp := h.keyed p (List.mem_filter.1 hp).1
  apart := by
    refine h.apart.of_le ?_
    rw [keys_eq, keys_eq]
    refine add_le_add (le_refl _) (Multiset.map_le_map ?_)
    exact Multiset.coe_le.2 (List.filter_sublist.map _).subperm

theorem Sound.live_eq (h : s.Sound) {c : Completion} (hmem : c.item ∈ s.underWay) :
    s.live = c.item ::ₘ (s.without c.key).live := by
  rw [live, live, (h.leave? hmem).2, Multiset.add_cons]
  rfl

theorem keys_eq_cons {c : Completion} {rest : State} (live : s.live = c.item ::ₘ rest.live) :
    s.keys = c.key ::ₘ rest.keys := by
  rw [keys, live, Multiset.map_cons, c.key_item]
  rfl

theorem Sound.keys_eq_cons (h : s.Sound) {c : Completion} (hmem : c.item ∈ s.underWay) :
    s.keys = c.key ::ₘ (s.without c.key).keys := State.keys_eq_cons (h.live_eq hmem)

end State

/-! ### The beginning -/

theorem map_id_abstractTasks {r : Run} (wf : r.classes.WellFormed) (fragments : FragmentSet) :
    (r.abstractTasks fragments).map (·.id) =
      (Dict.keys fragments).flatMap fun f => (Dict.keys r.classes).map (AbstractTaskId.mk f) := by
  have hkeys : (Dict.values r.classes).map (·.key) = Dict.keys r.classes := by
    rw [Dict.values, Dict.keys, List.map_map]
    exact List.map_congr_left wf.keyed
  have hfragments : Dict.keys fragments = fragments.map Prod.fst := rfl
  rw [abstractTasks, List.map_flatMap, hfragments, List.flatMap_map]
  refine List.flatMap_congr (fun p _ => ?_)
  rw [← hkeys, List.map_map, List.map_map]
  rfl

theorem nodup_abstractTasks {r : Run} (wf : r.classes.WellFormed) {fragments : FragmentSet}
    (ordered : Dict.Ordered fragments) : ((r.abstractTasks fragments).map (·.id)).Nodup := by
  rw [map_id_abstractTasks wf]
  refine nodup_flatMap_map (fun f f' k k' h => ?_) ordered.nodup_keys wf.ordered.nodup_keys
  cases h
  exact ⟨rfl, rfl⟩

theorem start_aside (r : Run) (fragments : FragmentSet) :
    Aside (r.queued fragments) (r.start fragments) := by
  unfold start
  dsimp only
  split
  · exact announce_aside _ _
  · exact .refl _

theorem live_start (r : Run) (fragments : FragmentSet) :
    (r.start fragments).live = ↑((r.abstractTasks fragments).map WorkItem.abstractTask) := by
  rw [(start_aside r fragments).live_eq, live, unadmitted, underWay]
  simp [Run.queued, fresh]

theorem start_sound {r : Run} (wf : r.classes.WellFormed) {fragments : FragmentSet}
    (ordered : Dict.Ordered fragments) : (r.start fragments).Sound := by
  have hinFlight : (r.start fragments).inFlight = [] := (start_aside r fragments).inFlight_eq
  have hkeys : (r.start fragments).keys =
      ↑(((r.abstractTasks fragments).map (·.id)).map ItemKey.abstractTask) := by
    rw [keys, live_start, Multiset.map_coe, List.map_map, List.map_map]
    rfl
  refine ⟨by simp [hinFlight], ?_, ?_⟩
  · rw [hkeys, Multiset.coe_nodup]
    refine (nodup_abstractTasks wf ordered).map (fun i j hij => ?_)
    cases hij
    rfl
  · intro id hid
    rw [hkeys, Multiset.mem_coe, List.mem_map] at hid
    obtain ⟨i, _, hi⟩ := hid
    cases hi

end Run
end TaskGen
