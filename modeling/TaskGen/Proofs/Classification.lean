import Mathlib.Data.List.Induction
import TaskGen.Proofs.Dict
import TaskGen.Proofs.Pairs
import TaskGen.RequirementClass

/-!
What becomes of the requirements of a list when they are sorted into classes.

Main statements: `classifyWith_wellFormed`, each class is kept under its own key and no two of
its members have the same identifier; `classification_complete_iff`, nothing is lost exactly
if no requirement without shared stages comes upon its own name as the key of a class.
-/

namespace TaskGen
namespace RequirementClasses

variable {digest : List ConfiguredStage → String} {cs : RequirementClasses} {r : Requirement}

/-! ### One more requirement -/

theorem exists_slotName (cs : RequirementClasses) (name : String)
    (stages : List ConfiguredStage) : ∃ n, slot cs name stages = slotName name n := by
  unfold slot
  cases h : ((List.range (cs.length + 1)).map (slotName name)).find? (isSlotFor cs stages) with
  | none => exact ⟨0, rfl⟩
  | some key =>
    obtain ⟨n, -, hn⟩ := List.mem_map.1 (List.mem_of_find?_eq_some h)
    exact ⟨n, hn.symm⟩

/-- A requirement begins a class or joins one.  Without shared stages it begins one under its
own identifier, whatever is kept there. -/
theorem place_cases (digest : List ConfiguredStage → String) (cs : RequirementClasses)
    (r : Requirement) :
    (r.sharedStages = [] ∧ place digest cs r = Dict.insert cs r.identifier ⟨r.identifier, r, []⟩) ∨
    (r.sharedStages ≠ [] ∧ ∃ n key, key = slotName (digest r.sharedStages) n ∧
      ((Dict.find? cs key = none ∧ place digest cs r = Dict.insert cs key ⟨key, r, []⟩) ∨
      ∃ c, Dict.find? cs key = some c ∧ place digest cs r = Dict.insert cs key (c.join r))) := by
  by_cases hempty : r.sharedStages = []
  · refine .inl ⟨hempty, ?_⟩
    rw [place, if_pos (by simp [hempty])]
  · obtain ⟨n, hn⟩ := exists_slotName cs (digest r.sharedStages) r.sharedStages
    refine .inr ⟨hempty, n, _, hn, ?_⟩
    rw [place, if_neg (by simpa using hempty)]
    cases hfind : Dict.find? cs (slot cs (digest r.sharedStages) r.sharedStages) with
    | none => exact .inl ⟨rfl, by simp only [hfind]⟩
    | some c => exact .inr ⟨c, rfl, by simp only [hfind]⟩

theorem classifyWith_append (digest : List ConfiguredStage → String) (rs : List Requirement)
    (r : Requirement) :
    classifyWith digest (rs ++ [r]) = place digest (classifyWith digest rs) r := by
  simp [classifyWith, List.foldl_append]

/-! ### The form of the classes -/

structure WellFormed (cs : RequirementClasses) : Prop where
  ordered : Dict.Ordered cs
  keyed : ∀ p ∈ cs, p.2.key = p.1
  distinct : ∀ p ∈ cs, p.2.identifiers.Nodup

/-- A class is kept under its own key.  The key is the name of a requirement without shared
stages or comes from the digest of a requirement with some. -/
structure Stems (digest : List ConfiguredStage → String) (rs : List Requirement)
    (p : String × RequirementClass) : Prop where
  keyed : p.2.key = p.1
  members : p.2.members.Sublist rs
  named : ∃ r ∈ rs, (r.sharedStages = [] ∧ p.1 = r.identifier) ∨
    (r.sharedStages ≠ [] ∧ ∃ n, p.1 = slotName (digest r.sharedStages) n)

theorem Stems.mono {rs : List Requirement} {p : String × RequirementClass}
    (h : Stems digest rs p) (r : Requirement) : Stems digest (rs ++ [r]) p := by
  obtain ⟨q, hq, hname⟩ := h.named
  exact ⟨h.keyed, h.members.trans (List.sublist_append_left rs [r]),
    q, List.mem_append_left _ hq, hname⟩

theorem place_stems {rs : List Requirement} (h : ∀ p ∈ cs, Stems digest rs p)
    (r : Requirement) : ∀ p ∈ place digest cs r, Stems digest (rs ++ [r]) p := by
  have hlast : r ∈ rs ++ [r] := List.mem_append_right _ (List.mem_singleton.2 rfl)
  have hsingle : [r].Sublist (rs ++ [r]) := List.sublist_append_right rs [r]
  intro p hp
  rcases place_cases digest cs r with ⟨hempty, heq⟩ | ⟨hne, n, key, hkey, hplace⟩
  · rw [heq] at hp
    rcases Dict.mem_of_mem_insert hp with rfl | hold
    · exact ⟨rfl, hsingle, r, hlast, .inl ⟨hempty, rfl⟩⟩
    · exact (h p hold).mono r
  · rcases hplace with ⟨_, heq⟩ | ⟨c, hfind, heq⟩
    · rw [heq] at hp
      rcases Dict.mem_of_mem_insert hp with rfl | hold
      · exact ⟨rfl, hsingle, r, hlast, .inr ⟨hne, n, hkey⟩⟩
      · exact (h p hold).mono r
    · rw [heq] at hp
      rcases Dict.mem_of_mem_insert hp with rfl | hold
      · have hc := h _ (Dict.mem_of_find? hfind)
        refine ⟨hc.keyed, ?_, r, hlast, .inr ⟨hne, n, hkey⟩⟩
        rw [RequirementClass.members_join]
        exact hc.members.append (List.Sublist.refl [r])
      · exact (h p hold).mono r

theorem place_ordered (ordered : Dict.Ordered cs) (r : Requirement) :
    Dict.Ordered (place digest cs r) := by
  rcases place_cases digest cs r with ⟨_, heq⟩ | ⟨_, n, key, _, ⟨_, heq⟩ | ⟨c, _, heq⟩⟩ <;>
    rw [heq] <;> exact ordered.insert _ _

theorem classifyWith_ordered (digest : List ConfiguredStage → String) (rs : List Requirement) :
    Dict.Ordered (classifyWith digest rs) := by
  -- By the last requirement, as they are placed from the first one on.
  induction rs using List.reverseRecOn with
  | nil => exact Dict.Ordered.nil
  | append_singleton rs r ih =>
    rw [classifyWith_append]
    exact place_ordered ih r

theorem classifyWith_stems (digest : List ConfiguredStage → String) (rs : List Requirement) :
    ∀ p ∈ classifyWith digest rs, Stems digest rs p := by
  induction rs using List.reverseRecOn with
  | nil => simp [classifyWith]
  | append_singleton rs r ih =>
    rw [classifyWith_append]
    exact place_stems ih r

theorem classifyWith_wellFormed (digest : List ConfiguredStage → String) {rs : List Requirement}
    (distinct : (rs.map (·.identifier)).Nodup) : WellFormed (classifyWith digest rs) where
  ordered := classifyWith_ordered digest rs
  keyed p hp := (classifyWith_stems digest rs p hp).keyed
  distinct p hp :=
    ((classifyWith_stems digest rs p hp).members.map Requirement.identifier).nodup distinct

theorem WellFormed.of_eq {rs : List Requirement} (h : cs = classifyWith digest rs)
    (distinct : (rs.map (·.identifier)).Nodup) : WellFormed cs := by
  rw [h]
  exact classifyWith_wellFormed digest distinct

/-! ### The members of all classes -/

theorem requirements_split (before after : RequirementClasses) (key : String)
    (c : RequirementClass) :
    requirements (before ++ (key, c) :: after) =
      requirements before ++ (c.members ++ requirements after) := by
  simp [requirements, Dict.values]

theorem totalRequirements_eq_length (cs : RequirementClasses) :
    totalRequirements cs = (requirements cs).length := by
  have hfold : ∀ (classes : List RequirementClass) (n : Nat),
      classes.foldl (fun n c => n + c.size) n = n + (classes.flatMap (·.members)).length := by
    intro classes
    induction classes with
    | nil => intro n; rfl
    | cons c classes ih =>
      intro n
      rw [List.foldl_cons, ih, List.flatMap_cons, List.length_append]
      have hsize : c.members.length = c.size := rfl
      omega
  rw [totalRequirements, hfold, Nat.zero_add]
  rfl

/-- A class that takes a free name adds its members. -/
theorem requirements_insert_perm_of_none {key : String} (h : Dict.find? cs key = none)
    (c : RequirementClass) :
    (requirements (Dict.insert cs key c)).Perm (requirements cs ++ c.members) := by
  obtain ⟨before, after, hcs, hinsert⟩ := Dict.insert_of_find?_none h
  have hold : requirements cs = requirements before ++ requirements after := by
    rw [hcs]
    simp [requirements, Dict.values]
  rw [hinsert, requirements_split, hold, List.append_assoc]
  exact List.Perm.append_left _ List.perm_append_comm

/-- A class that takes the place of another one has its members in place of the other's. -/
theorem requirements_insert_of_some (ordered : Dict.Ordered cs) {key : String}
    {old : RequirementClass} (h : Dict.find? cs key = some old) :
    ∃ front back, requirements cs = front ++ (old.members ++ back) ∧
      ∀ c, requirements (Dict.insert cs key c) = front ++ (c.members ++ back) := by
  obtain ⟨before, after, hcs, hinsert⟩ := Dict.insert_of_find?_some ordered h
  refine ⟨requirements before, requirements after, ?_, fun c => ?_⟩
  · rw [hcs, requirements_split]
  · rw [hinsert, requirements_split]

theorem requirements_place_perm (digest : List ConfiguredStage → String)
    (ordered : Dict.Ordered cs)
    (free : r.sharedStages = [] → Dict.find? cs r.identifier = none) :
    (requirements (place digest cs r)).Perm (requirements cs ++ [r]) := by
  rcases place_cases digest cs r with ⟨hempty, heq⟩ | ⟨_, n, key, _, hplace⟩
  · rw [heq]
    exact requirements_insert_perm_of_none (free hempty) _
  · rcases hplace with ⟨hnone, heq⟩ | ⟨c, hsome, heq⟩
    · rw [heq]
      exact requirements_insert_perm_of_none hnone _
    · obtain ⟨front, back, hcs, hinsert⟩ := requirements_insert_of_some ordered hsome
      rw [heq, hinsert, hcs, RequirementClass.members_join, List.append_assoc, List.append_assoc,
        List.append_assoc]
      refine List.Perm.append_left _ (List.Perm.append_left _ ?_)
      exact List.perm_append_comm

/-- Whoever was kept under the name of the requirement is lost. -/
theorem length_requirements_place_lt (digest : List ConfiguredStage → String)
    (ordered : Dict.Ordered cs) (empty : r.sharedStages = []) {old : RequirementClass}
    (taken : Dict.find? cs r.identifier = some old) :
    (requirements (place digest cs r)).length < (requirements cs).length + 1 := by
  obtain ⟨front, back, hcs, hinsert⟩ := requirements_insert_of_some ordered taken
  have hplace : place digest cs r = Dict.insert cs r.identifier ⟨r.identifier, r, []⟩ := by
    rw [place, if_pos (by simp [empty])]
  rw [hplace, hinsert, hcs]
  -- The new class has one member, and the old one has its pilot at least.
  simp only [List.length_append, RequirementClass.members, List.length_cons, List.length_nil]
  omega

/-! ### When nothing is lost -/

/-- No requirement without shared stages finds its identifier in use as the key of a class. -/
def NamesFree (digest : List ConfiguredStage → String) (rs : List Requirement) : Prop :=
  ∀ before r after, rs = before ++ r :: after → r.sharedStages = [] →
    Dict.find? (classifyWith digest before) r.identifier = none

theorem namesFree_append {rs : List Requirement} :
    NamesFree digest (rs ++ [r]) ↔ NamesFree digest rs ∧
      (r.sharedStages = [] → Dict.find? (classifyWith digest rs) r.identifier = none) := by
  constructor
  · intro h
    refine ⟨fun before q after heq => ?_, h rs r [] rfl⟩
    exact h before q (after ++ [r]) (by rw [heq]; simp)
  · rintro ⟨hrs, hr⟩ before q after heq hempty
    -- The requirement in question is the last one, or the last one does not matter to it.
    rcases cases_of_concat_eq heq with ⟨rfl, rfl, _⟩ | ⟨init, hfront, _⟩
    · exact hr hempty
    · exact hrs before q init hfront hempty

theorem requirements_perm_of_namesFree {rs : List Requirement} (free : NamesFree digest rs) :
    (requirements (classifyWith digest rs)).Perm rs := by
  induction rs using List.reverseRecOn with
  | nil => exact List.Perm.refl []
  | append_singleton rs r ih =>
    obtain ⟨hrs, hr⟩ := namesFree_append.1 free
    rw [classifyWith_append]
    exact (requirements_place_perm digest (classifyWith_ordered digest rs) hr).trans
      ((ih hrs).append_right [r])

theorem length_requirements_place_le (digest : List ConfiguredStage → String)
    (ordered : Dict.Ordered cs) (r : Requirement) :
    (requirements (place digest cs r)).length ≤ (requirements cs).length + 1 := by
  by_cases free : r.sharedStages = [] → Dict.find? cs r.identifier = none
  · have h := (requirements_place_perm digest ordered free).length_eq
    rw [List.length_append, List.length_singleton] at h
    omega
  · obtain ⟨hempty, htaken⟩ := Classical.not_imp.1 free
    obtain ⟨old, hold⟩ := Option.ne_none_iff_exists'.1 htaken
    exact Nat.le_of_lt (length_requirements_place_lt digest ordered hempty hold)

theorem length_requirements_le (digest : List ConfiguredStage → String)
    (rs : List Requirement) : (requirements (classifyWith digest rs)).length ≤ rs.length := by
  induction rs using List.reverseRecOn with
  | nil => exact Nat.le_refl 0
  | append_singleton rs r ih =>
    have hplace := length_requirements_place_le digest (classifyWith_ordered digest rs) r
    rw [classifyWith_append, List.length_append, List.length_singleton]
    omega

theorem namesFree_of_length_eq {rs : List Requirement}
    (h : (requirements (classifyWith digest rs)).length = rs.length) : NamesFree digest rs := by
  induction rs using List.reverseRecOn with
  | nil =>
    intro before r after heq
    simp at heq
  | append_singleton rs r ih =>
    have ordered := classifyWith_ordered digest rs
    have hrs := length_requirements_le digest rs
    have hplace := length_requirements_place_le digest ordered r
    rw [classifyWith_append, List.length_append, List.length_singleton] at h
    -- No requirement adds more than one member, so if all are there every one has added one.
    refine namesFree_append.2 ⟨ih (by omega), fun hempty => ?_⟩
    cases htaken : Dict.find? (classifyWith digest rs) r.identifier with
    | none => rfl
    | some old =>
      have hlt := length_requirements_place_lt digest ordered hempty htaken
      omega

/-- Nothing is lost exactly if the names of the requirements without shared stages are free
when they are needed. -/
theorem classification_complete_iff (digest : List ConfiguredStage → String)
    (rs : List Requirement) :
    ((requirements (classifyWith digest rs)).Perm rs ↔ NamesFree digest rs) ∧
    (totalRequirements (classifyWith digest rs) = rs.length ↔ NamesFree digest rs) := by
  rw [totalRequirements_eq_length]
  refine ⟨⟨fun h => ?_, requirements_perm_of_namesFree⟩, ⟨fun h => ?_, fun h => ?_⟩⟩
  · exact namesFree_of_length_eq h.length_eq
  · exact namesFree_of_length_eq h
  · exact (requirements_perm_of_namesFree h).length_eq

/-- A requirement without shared stages may have a digest for its name.  It then takes the
place of the class that is kept under this digest. -/
theorem classify_loses_digest_name :
    let rs : List Requirement :=
      [⟨"0", [⟨.sourceAnalysis, []⟩]⟩,
        ⟨"5a6161453a1aeaa643596fc8ac989c1713b5d5b7b0678ae96e0454d9", [⟨.requirementModel, []⟩]⟩]
    (rs.map (·.identifier)).Nodup ∧ ¬ (requirements (classify rs)).Perm rs ∧
      totalRequirements (classify rs) = 1 := by
  intro rs
  have hone : totalRequirements (classify rs) = 1 := by decide +kernel
  refine ⟨by decide, fun h => ?_, hone⟩
  have hlength := h.length_eq
  rw [← totalRequirements_eq_length, hone] at hlength
  exact absurd hlength (by decide)

end RequirementClasses
end TaskGen
