import Mathlib.Data.List.Nodup

/-!
Lists of pairs that are read as finite maps: each look-up finds the first pair with a key, and
a key is removed with every pair that has it.  Lists that grow at the end: an item is the new one or
stands in front of it.
-/

namespace TaskGen

/-- An item of a list with a new last one. -/
theorem cases_of_concat_eq {α : Type} {xs before after : List α} {x y : α}
    (h : xs ++ [x] = before ++ y :: after) :
    (before = xs ∧ y = x ∧ after = []) ∨
      ∃ init, xs = before ++ y :: init ∧ after = init ++ [x] := by
  rcases List.eq_nil_or_concat after with rfl | ⟨init, last, rfl⟩
  · obtain ⟨hfront, hlast⟩ := List.append_inj' h rfl
    exact .inl ⟨hfront.symm, (List.cons.inj hlast).1.symm, rfl⟩
  · rw [List.concat_eq_append, ← List.cons_append, ← List.append_assoc] at h
    obtain ⟨hfront, hlast⟩ := List.append_inj' h rfl
    exact .inr ⟨init, hfront, by rw [hlast, List.concat_eq_append]⟩

namespace Pairs

variable {κ β : Type} [DecidableEq κ]

theorem lookup_filter_self (ps : List (κ × β)) (k : κ) :
    (ps.filter fun p => p.1 ≠ k).lookup k = none := by
  rw [List.lookup_eq_none_iff]
  intro p hp
  have hne : p.1 ≠ k := by simpa using (List.mem_filter.1 hp).2
  simpa using hne.symm

theorem lookup_filter_of_ne {k k' : κ} (h : k' ≠ k) (ps : List (κ × β)) :
    (ps.filter fun p => p.1 ≠ k).lookup k' = ps.lookup k' := by
  induction ps with
  | nil => rfl
  | cons p rest ih =>
    by_cases hp : p.1 = k
    · have hk : (k' == p.1) = false := by simpa [hp] using h
      rw [List.filter_cons_of_neg (by simpa using hp), ih, List.lookup_cons, hk]
    · rw [List.filter_cons_of_pos (by simpa using hp), List.lookup_cons, List.lookup_cons, ih]

theorem lookup_set (ps : List (κ × β)) (k k' : κ) (new : List (κ × β))
    (own : ∀ p ∈ new, p.1 = k) :
    ((ps.filter fun p => p.1 ≠ k) ++ new).lookup k' =
      if k' = k then new.lookup k else ps.lookup k' := by
  rw [List.lookup_append]
  by_cases h : k' = k
  · rw [if_pos h, h, lookup_filter_self, Option.none_or]
  · have hnew : new.lookup k' = none := by
      rw [List.lookup_eq_none_iff]
      intro p hp
      simpa [own p hp] using h
    rw [if_neg h, hnew, Option.or_none, lookup_filter_of_ne h]

/-- With distinct keys, removing the key of a pair removes that pair and no other one. -/
theorem split_of_mem {ps : List (κ × β)} (distinct : (ps.map Prod.fst).Nodup) {p : κ × β}
    (h : p ∈ ps) :
    ps.lookup p.1 = some p.2 ∧
      ∃ before after, ps = before ++ p :: after ∧
        ps.filter (fun q => q.1 ≠ p.1) = before ++ after := by
  obtain ⟨before, after, rfl⟩ := List.append_of_mem h
  have hkey : ∀ q ∈ before ++ after, q.1 ≠ p.1 := by
    intro q hq heq
    have hperm := (@List.perm_middle _ p before after).map Prod.fst
    have hnodup := hperm.nodup_iff.1 distinct
    rw [List.map_cons, List.nodup_cons] at hnodup
    exact hnodup.1 (heq ▸ List.mem_map_of_mem hq)
  have hbefore : before.lookup p.1 = none := by
    rw [List.lookup_eq_none_iff]
    intro q hq
    have hne := hkey q (List.mem_append_left _ hq)
    simpa using hne.symm
  refine ⟨?_, before, after, rfl, ?_⟩
  · rw [List.lookup_append, hbefore, List.lookup_cons]
    simp
  · rw [List.filter_append, List.filter_cons_of_neg (by simp), ← List.filter_append]
    rw [List.filter_eq_self]
    intro q hq
    simpa using hkey q hq

end Pairs
end TaskGen
