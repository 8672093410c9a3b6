import TaskGen.Proofs.Classification
import TaskGen.Proofs.Sameness

/-!
Requirements with the same shared stages come into one class, also when different stages have
the same digest.  A class is found again because its search passes the same names each time: a
name that is in use for other stages stays in use for other stages.

Main statement: `grouping_exact`.  A class may be lost when a requirement without shared
stages takes its name, so nothing is said here about how many requirements are kept.
-/

namespace TaskGen

@[simp] theorem RequirementClass.sharedStages_join (c : RequirementClass) (r : Requirement) :
    (c.join r).sharedStages = c.sharedStages := rfl

namespace RequirementClasses

variable {digest : List ConfiguredStage → String} {cs : RequirementClasses} {r : Requirement}

/-! ### The search for a name -/

/-- The search from a number on.  It ends at the first name that is free or kept for these
stages.  No bound is set on the numbers. -/
inductive Search (cs : RequirementClasses) (name : String) (stages : List ConfiguredStage) :
    Nat → String → Prop where
  | found {n : Nat} (fits : isSlotFor cs stages (slotName name n) = true) :
      Search cs name stages n (slotName name n)
  | next {n : Nat} {key : String} (other : isSlotFor cs stages (slotName name n) = false)
      (rest : Search cs name stages (n + 1) key) : Search cs name stages n key

theorem slotName_injective (name : String) : Function.Injective (slotName name) := by
  have hlonger : ∀ n : Nat, name ++ "-" ++ toString n ≠ name := by
    intro n h
    have hlength := congrArg String.length h
    have hdash : "-".length = 1 := rfl
    rw [String.length_append, String.length_append] at hlength
    omega
  intro n m h
  cases n with
  | zero =>
    cases m with
    | zero => rfl
    | succ m => exact absurd h.symm (hlonger (m + 1))
  | succ n =>
    cases m with
    | zero => exact absurd h (hlonger (n + 1))
    | succ m => exact Nat.repr_inj.1 ((String.append_right_inj _).1 h)

/-- There are more names than classes. -/
theorem exists_free_slotName (cs : RequirementClasses) (name : String) :
    ∃ n, n < cs.length + 1 ∧ Dict.find? cs (slotName name n) = none := by
  by_contra hnone
  push Not at hnone
  have hsubset : (List.range (cs.length + 1)).map (slotName name) ⊆ Dict.keys cs := by
    intro key hkey
    obtain ⟨n, hn, rfl⟩ := List.mem_map.1 hkey
    by_contra hfree
    exact hnone n (List.mem_range.1 hn) (Dict.find?_eq_none_iff.2 hfree)
  have hnodup := (List.nodup_range (n := cs.length + 1)).map (slotName_injective name)
  have hlength := (hnodup.subperm hsubset).length_le
  rw [List.length_map, List.length_range, Dict.keys, List.length_map] at hlength
  omega

theorem isSlotFor_of_none {key : String} (h : Dict.find? cs key = none)
    (stages : List ConfiguredStage) : isSlotFor cs stages key = true := by
  rw [isSlotFor, h]

theorem isSlotFor_eq_false_iff {stages : List ConfiguredStage} {key : String} :
    isSlotFor cs stages key = false ↔
      ∃ c, Dict.find? cs key = some c ∧ samePipeline c.sharedStages stages = false := by
  rw [isSlotFor]
  cases Dict.find? cs key with
  | none => simp
  | some c => simp

/-- The name of a class is the first one that fits. -/
theorem exists_slot_eq (cs : RequirementClasses) (name : String)
    (stages : List ConfiguredStage) :
    ∃ n, slot cs name stages = slotName name n ∧ isSlotFor cs stages (slotName name n) = true ∧
      ∀ m < n, isSlotFor cs stages (slotName name m) = false := by
  have hfind : ((List.range (cs.length + 1)).map (slotName name)).find? (isSlotFor cs stages) =
      ((List.range (cs.length + 1)).find? (isSlotFor cs stages ∘ slotName name)).map
        (slotName name) := List.find?_map
  cases h : (List.range (cs.length + 1)).find? (isSlotFor cs stages ∘ slotName name) with
  | none =>
    obtain ⟨n, hn, hfree⟩ := exists_free_slotName cs name
    have hfits := List.find?_range_eq_none.1 h n hn
    rw [Function.comp_apply, isSlotFor_of_none hfree] at hfits
    cases hfits
  | some n =>
    obtain ⟨hfits, -, hfirst⟩ := List.find?_range_eq_some.1 h
    refine ⟨n, ?_, hfits, fun m hm => ?_⟩
    · rw [slot, hfind, h]
      rfl
    · simpa using hfirst m hm

theorem Search.of_first {name : String} {stages : List ConfiguredStage} {n : Nat}
    (fits : isSlotFor cs stages (slotName name n) = true) (steps : Nat) :
    ∀ k, k + steps = n → (∀ m, k ≤ m → m < n → isSlotFor cs stages (slotName name m) = false) →
      Search cs name stages k (slotName name n) := by
  induction steps with
  | zero =>
    intro k hk _
    have hkn : k = n := by omega
    subst hkn
    exact .found fits
  | succ steps ih =>
    intro k hk hother
    refine .next (hother k (Nat.le_refl k) (by omega)) (ih (k + 1) (by omega) ?_)
    exact fun m hm hmn => hother m (by omega) hmn

theorem Search.unique {name : String} {stages : List ConfiguredStage} {n : Nat}
    {key key' : String} (h : Search cs name stages n key) (h' : Search cs name stages n key') :
    key = key' := by
  induction h with
  | found fits =>
    cases h' with
    | found => rfl
    | next other => rw [fits] at other; cases other
  | next other rest ih =>
    cases h' with
    | found fits => rw [fits] at other; cases other
    | next _ rest' => exact ih rest'

/-- The search ends, although it has no bound of its own, and the name that it finds is the
one that is used. -/
theorem search_iff (cs : RequirementClasses) (name : String) (stages : List ConfiguredStage)
    (key : String) : Search cs name stages 0 key ↔ key = slot cs name stages := by
  obtain ⟨n, hslot, hfits, hfirst⟩ := exists_slot_eq cs name stages
  have hsearch : Search cs name stages 0 (slot cs name stages) := by
    rw [hslot]
    exact .of_first hfits n 0 (Nat.zero_add n) fun m _ hm => hfirst m hm
  constructor
  · intro h
    exact h.unique hsearch
  · rintro rfl
    exact hsearch

/-! ### One more requirement -/

/-- A requirement with shared stages begins a class or joins one with the same stages. -/
theorem place_cases_of_ne_nil (digest : List ConfiguredStage → String)
    (cs : RequirementClasses) (hne : r.sharedStages ≠ []) :
    let key := slot cs (digest r.sharedStages) r.sharedStages
    (Dict.find? cs key = none ∧ place digest cs r = Dict.insert cs key ⟨key, r, []⟩) ∨
    ∃ c, Dict.find? cs key = some c ∧ samePipeline c.sharedStages r.sharedStages = true ∧
      place digest cs r = Dict.insert cs key (c.join r) := by
  intro key
  obtain ⟨n, hslot, hfits, -⟩ := exists_slot_eq cs (digest r.sharedStages) r.sharedStages
  rw [← hslot] at hfits
  cases hfind : Dict.find? cs key with
  | none =>
    refine .inl ⟨rfl, ?_⟩
    rw [place, if_neg (by simpa using hne)]
    simp only [key] at hfind ⊢
    rw [hfind]
  | some c =>
    refine .inr ⟨c, rfl, ?_, ?_⟩
    · rw [isSlotFor, hfind] at hfits
      exact hfits
    · rw [place, if_neg (by simpa using hne)]
      simp only [key] at hfind ⊢
      rw [hfind]

/-- A name that is in use for other stages stays in use for other stages, also if its class is
replaced. -/
theorem isSlotFor_place (digest : List ConfiguredStage → String) {stages : List ConfiguredStage}
    (some_stages : stages ≠ []) {key : String} (other : isSlotFor cs stages key = false)
    (r : Requirement) : isSlotFor (place digest cs r) stages key = false := by
  obtain ⟨c, hfind, hother⟩ := isSlotFor_eq_false_iff.1 other
  rw [isSlotFor_eq_false_iff]
  by_cases hempty : r.sharedStages = []
  · have hplace : place digest cs r = Dict.insert cs r.identifier ⟨r.identifier, r, []⟩ := by
      rw [place, if_pos (by simp [hempty])]
    rw [hplace, Dict.find?_insert]
    by_cases hkey : r.identifier = key
    · -- The class is lost, and the one in its place has no shared stages.
      refine ⟨_, if_pos hkey, ?_⟩
      show samePipeline r.sharedStages stages = false
      rw [hempty, samePipeline_comm]
      by_contra hsame
      exact some_stages (eq_nil_of_samePipeline_nil (by simpa using hsame))
    · exact ⟨c, by rw [if_neg hkey, hfind], hother⟩
  · rcases place_cases_of_ne_nil digest cs hempty with ⟨hnone, heq⟩ | ⟨c', hsome, _, heq⟩
    · rw [heq, Dict.find?_insert]
      refine ⟨c, ?_, hother⟩
      have hkey : slot cs (digest r.sharedStages) r.sharedStages ≠ key := by
        intro hkey
        rw [hkey, hfind] at hnone
        cases hnone
      rw [if_neg hkey, hfind]
    · rw [heq, Dict.find?_insert]
      by_cases hkey : slot cs (digest r.sharedStages) r.sharedStages = key
      · rw [hkey, hfind] at hsome
        cases hsome
        exact ⟨_, if_pos hkey, hother⟩
      · exact ⟨c, by rw [if_neg hkey, hfind], hother⟩

structure Rooted (digest : List ConfiguredStage → String) (cs : RequirementClasses)
    (p : String × RequirementClass) : Prop where
  alone : p.2.sharedStages = [] → p.2.others = [] ∧ p.1 = p.2.pilot.identifier
  alike : ∀ q ∈ p.2.others, samePipeline p.2.sharedStages q.sharedStages = true
  passed : p.2.sharedStages ≠ [] → ∃ n, p.1 = slotName (digest p.2.sharedStages) n ∧
    ∀ m < n, isSlotFor cs p.2.sharedStages (slotName (digest p.2.sharedStages) m) = false

theorem Rooted.place {p : String × RequirementClass} (h : Rooted digest cs p)
    (r : Requirement) : Rooted digest (place digest cs r) p where
  alone := h.alone
  alike := h.alike
  passed hne := by
    obtain ⟨n, hname, hpassed⟩ := h.passed hne
    exact ⟨n, hname, fun m hm => isSlotFor_place digest hne (hpassed m hm) r⟩

theorem place_rooted (h : ∀ p ∈ cs, Rooted digest cs p) (r : Requirement) :
    ∀ p ∈ place digest cs r, Rooted digest (place digest cs r) p := by
  intro p hp
  by_cases hempty : r.sharedStages = []
  · have hplace : RequirementClasses.place digest cs r =
        Dict.insert cs r.identifier ⟨r.identifier, r, []⟩ := by
      rw [RequirementClasses.place, if_pos (by simp [hempty])]
    rw [hplace] at hp
    rcases Dict.mem_of_mem_insert hp with rfl | hold
    · exact ⟨fun _ => ⟨rfl, rfl⟩, fun q hq => absurd hq List.not_mem_nil,
        fun hne => absurd hempty hne⟩
    · exact (h p hold).place r
  · obtain ⟨n, hslot, hfits, hfirst⟩ := exists_slot_eq cs (digest r.sharedStages) r.sharedStages
    rcases place_cases_of_ne_nil digest cs hempty with ⟨_, heq⟩ | ⟨c, hsome, hsame, heq⟩
    · rw [heq] at hp
      rcases Dict.mem_of_mem_insert hp with rfl | hold
      · refine ⟨fun h => absurd h hempty, fun q hq => absurd hq List.not_mem_nil,
          fun _ => ⟨n, hslot, fun m hm => ?_⟩⟩
        exact isSlotFor_place digest hempty (hfirst m hm) r
      · exact (h p hold).place r
    · rw [heq] at hp
      rcases Dict.mem_of_mem_insert hp with rfl | hold
      · have hc := (h _ (Dict.mem_of_find? hsome)).place r
        have hstages : c.sharedStages ≠ [] := by
          intro hnil
          rw [hnil, samePipeline_comm] at hsame
          exact hempty (eq_nil_of_samePipeline_nil hsame)
        refine ⟨fun h => absurd h hstages, fun q hq => ?_, hc.passed⟩
        rcases List.mem_append.1 hq with hold | hlast
        · exact hc.alike q hold
        · rw [List.mem_singleton.1 hlast]
          exact hsame
      · exact (h p hold).place r

theorem classifyWith_rooted (digest : List ConfiguredStage → String) (rs : List Requirement) :
    ∀ p ∈ classifyWith digest rs, Rooted digest (classifyWith digest rs) p := by
  induction rs using List.reverseRecOn with
  | nil => simp [classifyWith]
  | append_singleton rs r ih =>
    rw [classifyWith_append]
    exact place_rooted ih r

/-- The requirement is kept under the name that its search finds. -/
theorem find?_place (digest : List ConfiguredStage → String) (cs : RequirementClasses)
    (hne : r.sharedStages ≠ []) :
    ∃ c, Dict.find? (place digest cs r) (slot cs (digest r.sharedStages) r.sharedStages) = some c ∧
      r ∈ c.members := by
  rcases place_cases_of_ne_nil digest cs hne with ⟨_, heq⟩ | ⟨c, _, _, heq⟩
  · rw [heq, Dict.find?_insert_self]
    exact ⟨_, rfl, List.mem_cons_self⟩
  · rw [heq, Dict.find?_insert_self]
    refine ⟨_, rfl, ?_⟩
    rw [RequirementClass.members_join]
    exact List.mem_append_right _ (List.mem_singleton.2 rfl)

/-! ### All classes -/

/-- Two classes with the same shared stages are one class. -/
theorem eq_of_samePipeline
    (respects : ∀ as bs, samePipeline as bs = true → digest as = digest bs)
    (ordered : Dict.Ordered cs) (rooted : ∀ p ∈ cs, Rooted digest cs p)
    {p q : String × RequirementClass} (hp : p ∈ cs) (hq : q ∈ cs)
    (hne : p.2.sharedStages ≠ []) (same : samePipeline p.2.sharedStages q.2.sharedStages = true) :
    p = q := by
  have hne' : q.2.sharedStages ≠ [] := by
    intro hnil
    rw [hnil] at same
    exact hne (eq_nil_of_samePipeline_nil same)
  obtain ⟨n, hpname, hppassed⟩ := (rooted p hp).passed hne
  obtain ⟨m, hqname, hqpassed⟩ := (rooted q hq).passed hne'
  have hdigest := respects _ _ same
  have hfindp : Dict.find? cs p.1 = some p.2 := Dict.find?_of_mem ordered.nodup_keys hp
  have hfindq : Dict.find? cs q.1 = some q.2 := Dict.find?_of_mem ordered.nodup_keys hq
  -- The search of the class with the larger number has passed the name of the other one.
  rcases Nat.lt_trichotomy n m with hlt | heq | hlt
  · have hpassed := hqpassed n hlt
    rw [← hdigest, ← hpname] at hpassed
    obtain ⟨c, hc, hother⟩ := isSlotFor_eq_false_iff.1 hpassed
    rw [hfindp] at hc
    cases hc
    rw [same] at hother
    cases hother
  · have hname : p.1 = q.1 := by rw [hpname, hqname, hdigest, heq]
    rw [hname, hfindq] at hfindp
    exact Prod.ext hname (Option.some.inj hfindp).symm
  · have hpassed := hppassed m hlt
    rw [hdigest, ← hqname] at hpassed
    obtain ⟨c, hc, hother⟩ := isSlotFor_eq_false_iff.1 hpassed
    rw [hfindq] at hc
    cases hc
    rw [samePipeline_comm, same] at hother
    cases hother

/-- What holds of the classes of a list of requirements, whatever the digests are. -/
structure Grouped (digest : List ConfiguredStage → String) (rs : List Requirement) : Prop where
  /-- The search for the name of a requirement ends, and the requirement is kept there. -/
  placed : ∀ before r after, rs = before ++ r :: after → r.sharedStages ≠ [] →
    ∃ key c, Search (classifyWith digest before) (digest r.sharedStages) r.sharedStages 0 key ∧
      Dict.find? (classifyWith digest (before ++ [r])) key = some c ∧ r ∈ c.members
  keyed : ∀ p ∈ classifyWith digest rs, p.2.key = p.1 ∧ p.2.members ≠ []
  alike : ∀ p ∈ classifyWith digest rs,
    p.2.members.Pairwise fun a b => samePipeline a.sharedStages b.sharedStages = true
  alone : ∀ p ∈ classifyWith digest rs, p.2.sharedStages = [] →
    p.2.members = [p.2.pilot] ∧ p.1 = p.2.pilot.identifier
  apart : ∀ p ∈ classifyWith digest rs, ∀ q ∈ classifyWith digest rs, p.2.sharedStages ≠ [] →
    samePipeline p.2.sharedStages q.2.sharedStages = true → p = q
  named : ∀ p ∈ classifyWith digest rs, p.2.sharedStages ≠ [] →
    p.1 = digest p.2.sharedStages ∨
      ∃ n, 0 < n ∧ p.1 = digest p.2.sharedStages ++ "-" ++ toString n
  /-- The members are in the order of the list, so the pilot is the first of them. -/
  ordered : ∀ p ∈ classifyWith digest rs, p.2.members.Sublist rs ∧
    ∃ before after, rs = before ++ p.2.pilot :: after ∧ p.2.others.Sublist after

/-- The members are the same as the pilot, and so as each other. -/
theorem Rooted.members_alike {p : String × RequirementClass} (h : Rooted digest cs p) :
    p.2.members.Pairwise fun a b => samePipeline a.sharedStages b.sharedStages = true := by
  refine List.pairwise_cons.2 ⟨h.alike, ?_⟩
  have hany : p.2.others.Pairwise fun _ _ => True := List.pairwise_of_forall fun _ _ => trivial
  refine hany.imp_of_mem ?_
  intro a b ha hb _
  have hpa := h.alike a ha
  rw [samePipeline_comm] at hpa
  exact samePipeline_trans hpa (h.alike b hb)

theorem exists_split_of_cons_sublist {pilot : Requirement} {others rs : List Requirement}
    (h : (pilot :: others).Sublist rs) :
    ∃ before after, rs = before ++ pilot :: after ∧ others.Sublist after := by
  obtain ⟨front, back, rfl, hpilot, hothers⟩ := List.cons_sublist_iff.1 h
  obtain ⟨before, between, rfl⟩ := List.append_of_mem hpilot
  refine ⟨before, between ++ back, ?_, hothers.trans (List.sublist_append_right _ _)⟩
  rw [List.append_assoc, List.cons_append]

/-- The classes are exact for any digest that is the same for the same stages, however often it
is the same for different ones. -/
theorem grouping_exact (respects : ∀ as bs, samePipeline as bs = true → digest as = digest bs)
    (rs : List Requirement) : Grouped digest rs where
  placed before r _ _ hne := by
    obtain ⟨c, hfind, hmem⟩ := find?_place digest (classifyWith digest before) hne
    refine ⟨_, c, (search_iff _ _ _ _).2 rfl, ?_, hmem⟩
    rw [classifyWith_append]
    exact hfind
  keyed p hp := ⟨(classifyWith_stems digest rs p hp).keyed, List.cons_ne_nil _ _⟩
  alike p hp := (classifyWith_rooted digest rs p hp).members_alike
  alone p hp hnil := by
    obtain ⟨hothers, hname⟩ := (classifyWith_rooted digest rs p hp).alone hnil
    exact ⟨by rw [RequirementClass.members, hothers], hname⟩
  apart p hp q hq hne same :=
    eq_of_samePipeline respects (classifyWith_ordered digest rs) (classifyWith_rooted digest rs)
      hp hq hne same
  named p hp hne := by
    obtain ⟨n, hname, -⟩ := (classifyWith_rooted digest rs p hp).passed hne
    cases n with
    | zero => exact .inl hname
    | succ n => exact .inr ⟨n + 1, Nat.succ_pos n, hname⟩
  ordered p hp := by
    have hmembers := (classifyWith_stems digest rs p hp).members
    exact ⟨hmembers, exists_split_of_cons_sublist hmembers⟩

/-- One digest for all stages.  The class of `b` is lost to a requirement that has its name,
and the next one with these stages gets a new name. -/
theorem grouping_exact_of_collisions :
    let digest : List ConfiguredStage → String := fun _ => "x"
    let early : List ConfiguredStage := [⟨.sourceAnalysis, []⟩]
    let late : List ConfiguredStage := [⟨.sourceAnalysis, []⟩, ⟨.environmentModel, []⟩]
    let rs : List Requirement :=
      [⟨"a", early⟩, ⟨"b", late⟩, ⟨"x-1", [⟨.weaver, []⟩]⟩, ⟨"c", late⟩, ⟨"d", early⟩]
    (classifyWith digest rs).map (fun p => (p.1, p.2.identifiers)) =
      [("x", ["a", "d"]), ("x-1", ["x-1"]), ("x-2", ["c"])] ∧ Grouped digest rs :=
  ⟨by decide +kernel, grouping_exact (fun _ _ _ => rfl) _⟩

end RequirementClasses
end TaskGen
