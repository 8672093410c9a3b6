import TaskGen.Proofs.Catalog.Selection

/-!
Which patterns a selection calls unmatched.  A requirement counts for the first pattern that
matches it and for no other.  So a pattern is called unmatched if those in front of it match all
that it matches itself, and the order of the patterns tells whether a selection succeeds.

Main statement: `matching_of_read`.
-/

namespace TaskGen
namespace Catalog

/-! ### Patterns and identifiers -/

def matched (E : Pattern.Engine) (p id : String) : Bool := (E.ofString? p).any (·.accepts id)

/-- The patterns that match no requirement of the catalog. -/
def idle (E : Pattern.Engine) (c : Catalog) (patterns : List String) : List String :=
  patterns.filter fun p => !c.identifiers.any (matched E p)

/-- Some of the others match every requirement that the pattern matches. -/
def covered (E : Pattern.Engine) (c : Catalog) (others : List String) (p : String) : Bool :=
  c.identifiers.all fun id => !matched E p id || others.any (matched E · id)

/-- The patterns that match nothing new, where those in front come first. -/
def useless (E : Pattern.Engine) (c : Catalog) (patterns : List String) : List String :=
  (patterns.zipIdx.filter fun q => c.covered E (patterns.take q.2) q.1).map (·.1)

variable {E : Pattern.Engine} {c : Catalog} {patterns : List String} {compiled : List Pattern}

theorem covered_iff {others : List String} {p : String} : c.covered E others p = true ↔
    ∀ id ∈ c.identifiers, matched E p id = true → ∃ q ∈ others, matched E q id = true := by
  rw [covered, List.all_eq_true]
  refine forall₂_congr fun id _ => ?_
  rw [Bool.or_eq_true, List.any_eq_true, Bool.not_eq_true', imp_iff_not_or, Bool.not_eq_true]

theorem covered_of_idle {others : List String} {p : String}
    (h : (!c.identifiers.any (matched E p)) = true) : c.covered E others p = true := by
  rw [Bool.not_eq_true', List.any_eq_false] at h
  refine covered_iff.2 fun id hid hp => ?_
  exact (h id hid hp).elim

theorem matched_of_read {p : String} {q : Pattern} (h : E.ofString? p = some q)
    (id : String) : matched E p id = q.accepts id := by
  rw [matched, h]
  rfl

theorem Compiled.firstMatch?_eq (h : Compiled E patterns compiled) (id : String) :
    firstMatch? compiled id = patterns.findIdx? (matched E · id) := by
  unfold firstMatch?
  induction h with
  | nil => rfl
  | @cons p q patterns compiled hread _ ih =>
    rw [List.findIdx?_cons, List.findIdx?_cons, matched_of_read hread, ih]

theorem exists_compile_of_read (read : ∀ p ∈ patterns, (E.ofString? p).isSome = true) :
    ∃ compiled, compile E patterns = .ok compiled := by
  refine exists_mapM_ok fun p hp => ?_
  obtain ⟨q, hq⟩ := Option.isSome_iff_exists.1 (read p hp)
  rw [hq]
  exact ⟨q, rfl⟩

/-! ### Requirements that count for a pattern -/

/-- A pattern is first for some requirement exactly if it is not covered by those in front. -/
theorem exists_first_iff {i : Nat} {p : String} (hp : patterns[i]? = some p) :
    (∃ id ∈ c.identifiers, patterns.findIdx? (matched E · id) = some i) ↔
      c.covered E (patterns.take i) p = false := by
  obtain ⟨hi, rfl⟩ := List.getElem?_eq_some_iff.1 hp
  rw [← Bool.not_eq_true, covered_iff]
  constructor
  · rintro ⟨id, hid, hfirst⟩ hcovered
    obtain ⟨_, hmatched, hbefore⟩ := List.findIdx?_eq_some_iff_getElem.1 hfirst
    obtain ⟨q, hq, hqid⟩ := hcovered id hid hmatched
    obtain ⟨j, hj, rfl⟩ := List.mem_take_iff_getElem.1 hq
    exact hbefore j (by omega) hqid
  · intro hopen
    push Not at hopen
    obtain ⟨id, hid, hmatched, hbefore⟩ := hopen
    refine ⟨id, hid, List.findIdx?_eq_some_iff_getElem.2 ⟨hi, hmatched, fun j hj hqid => ?_⟩⟩
    refine hbefore patterns[j] ?_ hqid
    exact List.mem_take_iff_getElem.2 ⟨j, by omega, rfl⟩

theorem unmatched_eq_useless (h : Compiled E patterns compiled) :
    unmatched c.identifiers compiled patterns = c.useless E patterns := by
  unfold unmatched useless
  dsimp only
  congr 1
  refine List.filter_congr fun q hq => ?_
  have hget := List.mem_zipIdx_iff_getElem?.1 hq
  have hhit : q.2 ∈ c.identifiers.filterMap (firstMatch? compiled) ↔
      c.covered E (patterns.take q.2) q.1 = false := by
    rw [List.mem_filterMap, ← exists_first_iff hget]
    simp only [h.firstMatch?_eq]
  rw [Bool.eq_iff_iff, Bool.not_eq_true', List.contains_eq_mem, decide_eq_false_iff_not, hhit,
    Bool.not_eq_false]

/-! ### Selections -/

/-- A selection by what the patterns match. -/
theorem select_eq (read : ∀ p ∈ patterns, (E.ofString? p).isSome = true) :
    c.select patterns E =
      if c.useless E patterns = [] then
        (c.identifiers.filter fun id => patterns.any (matched E · id)).mapM c.resolve
      else .error (.unmatchedPatterns (c.useless E patterns)) := by
  obtain ⟨compiled, hcompile⟩ := exists_compile_of_read read
  have hread := compiled_of_compile hcompile
  have hsome : ∀ id, (firstMatch? compiled id).isSome = patterns.any (matched E · id) := by
    intro id
    rw [hread.firstMatch?_eq, List.findIdx?_isSome]
  unfold select
  rw [hcompile]
  show (if (!(unmatched c.identifiers compiled patterns).isEmpty) = true then _ else _) = _
  rw [unmatched_eq_useless hread]
  simp only [hsome]
  cases c.useless E patterns with
  | nil => rfl
  | cons p rest => rfl

theorem resolve_ne_unmatched (c : Catalog) (id : String) (ps : List String) :
    c.resolve id ≠ .error (.unmatchedPatterns ps) := by
  intro h
  unfold resolve at h
  split at h
  · cases h
  · split at h
    · cases h
    · rcases cases_of_bind_error h with happlied | ⟨_, _, hdone⟩
      · obtain ⟨_, _, _, _, he, _⟩ := invalid_of_applyOverrides happlied
        cases he
      · dsimp only at hdone
        split at hdone
        · cases hdone
        · cases hdone

theorem select_unmatched_iff (read : ∀ p ∈ patterns, (E.ofString? p).isSome = true)
    {ps : List String} : c.select patterns E = .error (.unmatchedPatterns ps) ↔
      ps ≠ [] ∧ ps = c.useless E patterns := by
  rw [select_eq read]
  split
  · next hnone =>
    rw [hnone]
    constructor
    · intro h
      obtain ⟨id, _, hresolve⟩ := exists_of_mapM_error h
      exact (resolve_ne_unmatched c id ps hresolve).elim
    · rintro ⟨hne, hnil⟩
      exact (hne hnil).elim
  · next hsome =>
    constructor
    · intro h
      cases h
      exact ⟨hsome, rfl⟩
    · rintro ⟨_, rfl⟩
      rfl

theorem exists_select_iff (read : ∀ p ∈ patterns, (E.ofString? p).isSome = true) :
    (∃ rs, c.select patterns E = .ok rs) ↔ c.useless E patterns = [] ∧
      ∀ id ∈ c.identifiers, patterns.any (matched E · id) = true → ∃ r, c.resolve id = .ok r := by
  rw [select_eq read]
  split
  · next hnone =>
    rw [hnone]
    constructor
    · rintro ⟨rs, hrs⟩
      refine ⟨rfl, fun id hid hmatched => ?_⟩
      obtain ⟨r, _, hr⟩ := exists_of_forall₂ (forall₂_of_mapM hrs) id
        (List.mem_filter.2 ⟨hid, hmatched⟩)
      exact ⟨r, hr⟩
    · rintro ⟨_, hresolve⟩
      refine exists_mapM_ok fun id hid => ?_
      obtain ⟨hmem, hmatched⟩ := List.mem_filter.1 hid
      exact hresolve id hmem hmatched
  · next hsome =>
    constructor
    · rintro ⟨rs, hrs⟩
      cases hrs
    · rintro ⟨hnone, _⟩
      exact (hsome hnone).elim

/-- Every pattern that matches something matches something new. -/
def Apart (E : Pattern.Engine) (c : Catalog) (patterns : List String) : Prop :=
  ∀ i p, patterns[i]? = some p → c.covered E (patterns.take i) p = true →
    ∀ id ∈ c.identifiers, matched E p id = false

theorem idle_eq (c : Catalog) (patterns : List String) : c.idle E patterns =
    (patterns.zipIdx.filter fun q => !c.identifiers.any (matched E q.1)).map (·.1) := by
  conv_lhs => rw [idle, ← List.zipIdx_map_fst 0 patterns]
  rw [List.filter_map]
  rfl

/-- As lists, as a pattern can be given more than once. -/
theorem useless_eq_idle_iff : c.useless E patterns = c.idle E patterns ↔ c.Apart E patterns := by
  rw [idle_eq, useless]
  constructor
  · intro heq i p hp hcovered id hid
    have hsub : (patterns.zipIdx.filter fun q => !c.identifiers.any (matched E q.1)).Sublist
        (patterns.zipIdx.filter fun q => c.covered E (patterns.take q.2) q.1) :=
      List.monotone_filter_right _ fun q hq => covered_of_idle hq
    have hlists := hsub.eq_of_length <| by
      rw [← List.length_map (·.1), ← heq, List.length_map]
    have hmem : (p, i) ∈ patterns.zipIdx.filter fun q => c.covered E (patterns.take q.2) q.1 :=
      List.mem_filter.2 ⟨List.mem_zipIdx_iff_getElem?.2 hp, hcovered⟩
    rw [← hlists, List.mem_filter] at hmem
    have hidle := hmem.2
    rw [Bool.not_eq_true', List.any_eq_false] at hidle
    exact Bool.eq_false_iff.2 (hidle id hid)
  · intro hapart
    congr 1
    refine List.filter_congr fun q hq => ?_
    rw [Bool.eq_iff_iff]
    constructor
    · intro hcovered
      have hnone := hapart q.2 q.1 (List.mem_zipIdx_iff_getElem?.1 hq) hcovered
      rw [Bool.not_eq_true', List.any_eq_false]
      intro id hid
      exact Bool.eq_false_iff.1 (hnone id hid)
    · exact covered_of_idle

theorem select_congr {others : List String} (same : ∀ p, p ∈ others ↔ p ∈ patterns)
    (read : ∀ p ∈ patterns, (E.ofString? p).isSome = true) {rs : List Requirement}
    (apart : c.Apart E patterns) (apart' : c.Apart E others) (h : c.select patterns E = .ok rs) :
    c.select others E = .ok rs := by
  rw [select_eq read, useless_eq_idle_iff.2 apart] at h
  split at h
  · next hnone =>
    have hnone' : c.idle E others = [] := by
      rw [idle, List.filter_eq_nil_iff] at hnone ⊢
      intro p hp
      exact hnone p ((same p).1 hp)
    have hany : ∀ id, others.any (matched E · id) = patterns.any (matched E · id) := by
      intro id
      rw [Bool.eq_iff_iff, List.any_eq_true, List.any_eq_true]
      simp only [same]
    rw [select_eq fun p hp => read p ((same p).1 hp), useless_eq_idle_iff.2 apart', if_pos hnone']
    simp only [hany]
    exact h
  · cases h

structure Matching (E : Pattern.Engine) (c : Catalog) (patterns : List String) : Prop where
  named : ∀ ps, c.select patterns E = .error (.unmatchedPatterns ps) ↔
    ps ≠ [] ∧ ps = c.useless E patterns
  succeeds_iff : (∃ rs, c.select patterns E = .ok rs) ↔ c.useless E patterns = [] ∧
    ∀ id ∈ c.identifiers, patterns.any (matched E · id) = true → ∃ r, c.resolve id = .ok r
  /-- The patterns that match nothing are named, and no others, exactly if these are apart. -/
  exact : (∀ ps, c.select patterns E = .error (.unmatchedPatterns ps) ↔
    ps ≠ [] ∧ ps = c.idle E patterns) ↔ c.Apart E patterns
  /-- Then neither order nor repetition matters. -/
  stable : ∀ others, (∀ p, p ∈ others ↔ p ∈ patterns) → c.Apart E patterns → c.Apart E others →
    ∀ rs, c.select others E = .ok rs ↔ c.select patterns E = .ok rs

theorem matching_of_read (c : Catalog) {patterns : List String}
    (read : ∀ p ∈ patterns, (E.ofString? p).isSome = true) : Matching E c patterns where
  named _ := select_unmatched_iff read
  succeeds_iff := exists_select_iff read
  exact := by
    simp only [select_unmatched_iff read]
    rw [← useless_eq_idle_iff]
    constructor
    · intro h
      by_cases huseless : c.useless E patterns = []
      · by_cases hidle : c.idle E patterns = []
        · exact huseless.trans hidle.symm
        · exact ((h _).2 ⟨hidle, rfl⟩).2.symm
      · exact ((h _).1 ⟨huseless, rfl⟩).2
    · intro h ps
      rw [h]
  stable others same apart apart' rs := by
    constructor
    · exact select_congr (fun p => (same p).symm) (fun p hp => read p ((same p).1 hp)) apart' apart
    · exact select_congr same read apart apart'

def twoText : String :=
  let requirement := fun id => Json.Value.object [("identifier", .string id)]
  (Json.Value.object [
    ("requirement specifications", .object [("children", .array [requirement "a", requirement "b"]),
      ("template", .string "t")]),
    ("templates", .object [("t", .object [("plugins", .array [])])])]).compact

theorem read_of_subset {patterns : List String} (h : patterns ⊆ ["a", ".*"]) :
    ∀ p ∈ patterns, (Pattern.Engine.standard.ofString? p).isSome = true := by
  have hread : ∀ p ∈ ["a", ".*"], (Pattern.Engine.standard.ofString? p).isSome = true := by
    decide +kernel
  intro p hp
  exact hread p (h hp)

set_option maxRecDepth 100000 in
theorem exists_two : ∃ c, Catalog.parse twoText = .ok c ∧ c.identifiers = ["a", "b"] ∧
    c.useless .standard ["a", ".*"] = [] ∧ c.useless .standard [".*", "a"] = ["a"] ∧
    c.useless .standard ["a", "a"] = ["a"] ∧
    (c.select ["a"]).isOk = true ∧ (c.select ["a", ".*"]).isOk = true := by
  have hrun : (Catalog.parse twoText).toOption.map (fun c => (c.identifiers,
      c.useless .standard ["a", ".*"], c.useless .standard [".*", "a"],
      c.useless .standard ["a", "a"], (c.select ["a"]).isOk, (c.select ["a", ".*"]).isOk)) =
      some (["a", "b"], [], ["a"], ["a"], true, true) := by
    decide +kernel
  obtain ⟨c, hparse, hc⟩ := exists_of_toOption_map hrun
  simp only [Prod.mk.injEq] at hc
  exact ⟨c, hparse, hc⟩

theorem matching_of_two : ∃ c, Catalog.parse twoText = .ok c ∧ c.identifiers = ["a", "b"] ∧
    c.useless .standard ["a", ".*"] = [] ∧ Matching .standard c ["a", ".*"] := by
  obtain ⟨c, hparse, hids, huseless, _⟩ := exists_two
  exact ⟨c, hparse, hids, huseless, matching_of_read c (read_of_subset (by decide))⟩

/-- Every pattern matches a requirement, yet a selection depends on which comes first, and on
whether one is repeated. -/
theorem select_depends_on_order : ∃ c, Catalog.parse twoText = .ok c ∧
    c.idle .standard [".*", "a"] = [] ∧ (c.select ["a", ".*"]).isOk = true ∧
    c.select [".*", "a"] = .error (.unmatchedPatterns ["a"]) ∧ (c.select ["a"]).isOk = true ∧
    c.select ["a", "a"] = .error (.unmatchedPatterns ["a"]) := by
  obtain ⟨c, hparse, hids, _, hlate, hagain, hone, hearly⟩ := exists_two
  have hidle : c.idle .standard [".*", "a"] = [] := by
    rw [idle, hids]
    decide +kernel
  refine ⟨c, hparse, hidle, hearly, ?_, hone, ?_⟩
  · rw [select_unmatched_iff (read_of_subset (by decide))]
    exact ⟨List.cons_ne_nil _ _, hlate.symm⟩
  · rw [select_unmatched_iff (read_of_subset (by decide))]
    exact ⟨List.cons_ne_nil _ _, hagain.symm⟩

end Catalog
end TaskGen
