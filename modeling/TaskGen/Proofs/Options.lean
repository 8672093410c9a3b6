import TaskGen.Options
import TaskGen.Proofs.Catalog.Reading
import TaskGen.Proofs.Dict

/-!
Options over options, name by name and at any depth.  A way is a list of names that leads down
into objects.  What is at its end after merging depends on what is at its end in both maps, and on
nothing else but a value of the overrides that stands in the way.

Main statement: `merging_of_ordered`.
-/

namespace TaskGen

namespace Json.Value

def IsObject (v : Value) : Prop := ∃ members, v = object members

def at? : Value → List String → Option Value
  | v, [] => some v
  | object members, name :: rest => (Dict.find? members name).bind fun v => v.at? rest
  | _, _ :: _ => none

/-- The way meets something that is not an object, and there are names left. -/
def Blocks (v : Value) (way : List String) : Prop :=
  ∃ front rest found, way = front ++ rest ∧ rest ≠ [] ∧ v.at? front = some found ∧
    ¬ found.IsObject

@[simp] theorem at?_nil (v : Value) : v.at? [] = some v := by
  cases v <;> rfl

theorem at?_cons (members : List (String × Value)) (name : String) (rest : List String) :
    (object members).at? (name :: rest) =
      (Dict.find? members name).bind fun v => v.at? rest := rfl

theorem at?_cons_of_not_object {v : Value} (h : ¬ v.IsObject) (name : String)
    (rest : List String) : v.at? (name :: rest) = none := by
  cases v with
  | object members => exact (h ⟨members, rfl⟩).elim
  | _ => rfl

theorem isObject_of_at?_cons {v found : Value} {name : String} {rest : List String}
    (h : v.at? (name :: rest) = some found) : v.IsObject := by
  by_contra hplain
  rw [at?_cons_of_not_object hplain] at h
  cases h

/-- At a name the way goes on in the value of that name. -/
theorem blocks_cons_iff {members : List (String × Value)} {name : String} {rest : List String} :
    (object members).Blocks (name :: rest) ↔
      ∃ v, Dict.find? members name = some v ∧ (¬ v.IsObject ∧ rest ≠ [] ∨ v.Blocks rest) := by
  constructor
  · rintro ⟨front, left, found, hway, hleft, hfound, hplain⟩
    cases front with
    | nil =>
      rw [at?_nil] at hfound
      cases hfound
      exact (hplain ⟨members, rfl⟩).elim
    | cons first front =>
      obtain ⟨rfl, hrest⟩ := List.cons.inj hway
      obtain ⟨v, hv, hfront⟩ := Option.bind_eq_some_iff.1 hfound
      exact ⟨v, hv, .inr ⟨front, left, found, hrest, hleft, hfront, hplain⟩⟩
  · rintro ⟨v, hv, ⟨hplain, hrest⟩ | ⟨front, left, found, hway, hleft, hfound, hplain⟩⟩
    · refine ⟨[name], rest, v, rfl, hrest, ?_, hplain⟩
      rw [at?_cons, hv, Option.bind_some, at?_nil]
    · refine ⟨name :: front, left, found, by rw [hway]; rfl, hleft, ?_, hplain⟩
      rw [at?_cons, hv, Option.bind_some, hfound]

end Json.Value

namespace Options

open Json

variable {b o : Options}

/-- A map is reached from the maps in it. -/
theorem induct {P : Options → Prop}
    (step : ∀ o, (∀ name n, Dict.find? o name = some (.object n) → P n) → P o) (o : Options) :
    P o :=
  step o fun name n h =>
    have hsmaller : sizeOf n < sizeOf o := by
      have hmem := List.sizeOf_lt_of_mem (Dict.mem_of_find? h)
      rw [Prod.mk.sizeOf_spec, Value.object.sizeOf_spec] at hmem
      omega
    induct step n
termination_by sizeOf o
decreasing_by exact hsmaller

/-! ### One name -/

/-- Where there are not two objects the override stands. -/
theorem mergeValue_of_apart {base : Option Value} {v : Value}
    (h : ∀ m n, base = some (.object m) → v ≠ .object n) : mergeValue base v = v := by
  rw [mergeValue]
  exact h

theorem mergeValue_object (m n : Options) :
    mergeValue (some (.object m)) (.object n) = .object (merge m n) := by
  rw [mergeValue]

/-- Under a name there is what the overrides have there, merged into what was there. -/
theorem find?_merge (nodup : (Dict.keys o).Nodup) (b : Options) (name : String) :
    Dict.find? (merge b o) name =
      ((Dict.find? o name).map (mergeValue (Dict.find? b name))).or (Dict.find? b name) := by
  induction o generalizing b with
  | nil => rfl
  | cons p rest ih =>
    obtain ⟨key, v⟩ := p
    rw [Dict.keys, List.map_cons, List.nodup_cons] at nodup
    rw [merge, ih nodup.2, Dict.find?_cons]
    by_cases hkey : key = name
    · subst hkey
      have hnone : Dict.find? rest key = none := Dict.find?_eq_none_iff.2 nodup.1
      rw [hnone, Dict.find?_insert_self, if_pos rfl]
      rfl
    · rw [Dict.find?_insert_of_ne _ _ hkey, if_neg hkey]

section
variable {name : String} (ordered : Dict.Ordered o) (b : Options)
include ordered

theorem find?_merge_of_none (h : Dict.find? o name = none) :
    Dict.find? (merge b o) name = Dict.find? b name := by
  rw [find?_merge ordered.nodup_keys, h]
  rfl

theorem find?_merge_of_some {v : Value} (h : Dict.find? o name = some v) :
    Dict.find? (merge b o) name = some (mergeValue (Dict.find? b name) v) := by
  rw [find?_merge ordered.nodup_keys, h]
  rfl

end

/-! ### Maps in order -/

theorem dictOrdered_merge (hb : Dict.Ordered b) (o : Options) : Dict.Ordered (merge b o) := by
  induction o generalizing b with
  | nil => exact hb
  | cons p rest ih =>
    obtain ⟨key, v⟩ := p
    rw [merge]
    exact ih (hb.insert key _)

theorem ordered_of_find? (h : (Value.object o).Ordered) {name : String} {v : Value}
    (found : Dict.find? o name = some v) : v.Ordered :=
  h.of_mem (Dict.mem_of_find? found)

theorem ordered_merge (hb : (Value.object b).Ordered) (ho : (Value.object o).Ordered) :
    (Value.object (merge b o)).Ordered := by
  induction o using induct generalizing b with
  | step o ih =>
    have hordered := dictOrdered_merge hb.1 o
    refine ⟨hordered, orderedMembers_iff.2 ?_⟩
    rintro ⟨name, x⟩ hx
    have hfind := Dict.find?_of_mem hordered.nodup_keys hx
    cases hv : Dict.find? o name with
    | none =>
      rw [find?_merge_of_none ho.1 b hv] at hfind
      exact ordered_of_find? hb hfind
    | some v =>
      rw [find?_merge_of_some ho.1 b hv] at hfind
      cases hfind
      by_cases hboth : ∃ m n, Dict.find? b name = some (.object m) ∧ v = .object n
      · obtain ⟨m, n, hm, rfl⟩ := hboth
        rw [hm, mergeValue_object]
        exact ih name n hv (ordered_of_find? hb hm) (ordered_of_find? ho hv)
      · rw [mergeValue_of_apart fun m n hm hn => hboth ⟨m, n, hm, hn⟩]
        exact ordered_of_find? ho hv

/-! ### Identities -/

theorem merge_nil (b : Options) : merge b [] = b := by
  rw [merge]

theorem nil_merge (ho : Dict.Ordered o) : merge [] o = o := by
  refine (dictOrdered_merge Dict.Ordered.nil o).eq_of_find? ho fun name => ?_
  cases hv : Dict.find? o name with
  | none => rw [find?_merge_of_none ho [] hv, Dict.find?_nil]
  | some v =>
    rw [find?_merge_of_some ho [] hv, mergeValue_of_apart]
    intro m n hm
    cases hm

/-- Overrides that are there already change nothing. -/
theorem merge_merge (hb : (Value.object b).Ordered) (ho : (Value.object o).Ordered) :
    merge (merge b o) o = merge b o := by
  induction o using induct generalizing b with
  | step o ih =>
    have hmerged := ordered_merge hb ho
    refine (dictOrdered_merge hmerged.1 o).eq_of_find? hmerged.1 fun name => ?_
    cases hv : Dict.find? o name with
    | none => exact find?_merge_of_none ho.1 _ hv
    | some v =>
      rw [find?_merge_of_some ho.1 _ hv, find?_merge_of_some ho.1 b hv]
      by_cases hobject : v.IsObject
      · obtain ⟨n, rfl⟩ := hobject
        have hn := ordered_of_find? ho hv
        by_cases hbase : ∃ m, Dict.find? b name = some (.object m)
        · obtain ⟨m, hm⟩ := hbase
          rw [hm, mergeValue_object, mergeValue_object, ih name n hv (ordered_of_find? hb hm) hn]
        · -- The object of the overrides stands alone, and is then merged into itself.
          have hself : merge n n = n := by
            have hagain := ih name n hv (b := []) ⟨Dict.Ordered.nil, trivial⟩ hn
            rwa [nil_merge hn.1] at hagain
          have hfirst : mergeValue (Dict.find? b name) (.object n) = .object n :=
            mergeValue_of_apart fun m _ hm => (hbase ⟨m, hm⟩).elim
          rw [hfirst, mergeValue_object, hself]
      · have hplain : ∀ base, mergeValue base v = v := fun base =>
          mergeValue_of_apart fun m n _ hn => hobject ⟨n, hn⟩
        rw [hplain, hplain]

/-! ### Ways -/

/-- What is found at the end of a way in `b` with `o` over it. -/
structure MergedAt (b o : Options) (way : List String) (found : Option Value) : Prop where
  plain : ∀ v, (Value.object o).at? way = some v → ¬ v.IsObject → found = some v
  both : ∀ m n, (Value.object b).at? way = some (.object m) →
    (Value.object o).at? way = some (.object n) → found = some (.object (merge m n))
  single : ∀ n, (Value.object o).at? way = some (.object n) →
    (∀ m, (Value.object b).at? way ≠ some (.object m)) → found = some (.object n)
  blocked : (Value.object o).at? way = none → (Value.object o).Blocks way → found = none
  base : (Value.object o).at? way = none → ¬ (Value.object o).Blocks way →
    found = (Value.object b).at? way

theorem mergedAt_nil (b o : Options) : MergedAt b o [] (some (.object (merge b o))) where
  plain v hv hplain := by
    cases hv
    exact (hplain ⟨o, rfl⟩).elim
  both m n hm hn := by
    cases hm
    cases hn
    rfl
  single n _ hbase := (hbase b rfl).elim
  blocked h := by cases h
  base h := by cases h

section
variable {name : String} {rest : List String}

/-- Where the overrides have nothing the way goes on in the base. -/
theorem mergedAt_cons_of_none (h : Dict.find? o name = none) :
    MergedAt b o (name :: rest) ((Value.object b).at? (name :: rest)) := by
  have hnone : (Value.object o).at? (name :: rest) = none := by
    rw [Value.at?_cons, h, Option.bind_none]
  refine ⟨fun v hv => ?_, fun m n _ hn => ?_, fun n hn => ?_, fun _ hblocks => ?_, fun _ _ => rfl⟩
  · rw [hnone] at hv
    cases hv
  · rw [hnone] at hn
    cases hn
  · rw [hnone] at hn
    cases hn
  · obtain ⟨v, hv, _⟩ := Value.blocks_cons_iff.1 hblocks
    rw [h] at hv
    cases hv

/-- Where both have an object the way goes on in both. -/
theorem mergedAt_cons_of_objects {m n : Options} (hb : Dict.find? b name = some (.object m))
    (ho : Dict.find? o name = some (.object n)) {found : Option Value}
    (h : MergedAt m n rest found) : MergedAt b o (name :: rest) found := by
  have hbase : (Value.object b).at? (name :: rest) = (Value.object m).at? rest := by
    rw [Value.at?_cons, hb, Option.bind_some]
  have hover : (Value.object o).at? (name :: rest) = (Value.object n).at? rest := by
    rw [Value.at?_cons, ho, Option.bind_some]
  have hblocks : (Value.object o).Blocks (name :: rest) ↔ (Value.object n).Blocks rest := by
    rw [Value.blocks_cons_iff]
    constructor
    · rintro ⟨v, hv, hrest⟩
      rw [ho] at hv
      cases hv
      exact hrest.resolve_left fun hplain => hplain.1 ⟨n, rfl⟩
    · exact fun hrest => ⟨_, ho, .inr hrest⟩
  refine ⟨?_, ?_, ?_, ?_, ?_⟩
  · rw [hover]
    exact h.plain
  · rw [hbase, hover]
    exact h.both
  · rw [hbase, hover]
    exact h.single
  · rw [hover, hblocks]
    exact h.blocked
  · rw [hbase, hover, hblocks]
    exact h.base

/-- Everywhere else the value of the overrides stands, with all that is in it. -/
theorem mergedAt_cons_of_apart {v : Value} (ho : Dict.find? o name = some v)
    (apart : ∀ m n, Dict.find? b name = some (.object m) → v ≠ .object n) :
    MergedAt b o (name :: rest) (v.at? rest) := by
  have hover : (Value.object o).at? (name :: rest) = v.at? rest := by
    rw [Value.at?_cons, ho, Option.bind_some]
  -- If the way goes on in the overrides, it does not go on in the base.
  have hbase : v.IsObject → ∀ w, (Value.object b).at? (name :: rest) = some w → rest = [] := by
    rintro ⟨n, rfl⟩ w hw
    obtain ⟨x, hx, hrest⟩ := Option.bind_eq_some_iff.1 hw
    cases rest with
    | nil => rfl
    | cons next rest =>
      obtain ⟨m, rfl⟩ := Value.isObject_of_at?_cons hrest
      exact (apart m n hx rfl).elim
  refine ⟨fun w hw _ => ?_, fun m n hm hn => ?_, fun n hn _ => ?_, fun hnone _ => ?_,
    fun hnone hclear => ?_⟩
  · rw [← hover, hw]
  · exfalso
    rw [hover] at hn
    cases rest with
    | nil =>
      obtain ⟨x, hx, hm⟩ := Option.bind_eq_some_iff.1 hm
      rw [Value.at?_nil] at hm hn
      cases hm
      cases hn
      exact apart m n hx rfl
    | cons next rest =>
      have hfalse := hbase (Value.isObject_of_at?_cons hn) _ hm
      cases hfalse
  · rw [← hover, hn]
  · rw [← hover, hnone]
  · rw [← hover, hnone]
    cases hfound : (Value.object b).at? (name :: rest) with
    | none => rfl
    | some w =>
      exfalso
      have hrest : rest ≠ [] := by
        rintro rfl
        rw [hover, Value.at?_nil] at hnone
        cases hnone
      have hobject : v.IsObject := by
        by_contra hplain
        exact hclear (Value.blocks_cons_iff.2 ⟨v, ho, .inl ⟨hplain, hrest⟩⟩)
      exact hrest (hbase hobject w hfound)

end

theorem mergedAt (ho : (Value.object o).Ordered) (b : Options) (way : List String) :
    MergedAt b o way ((Value.object (merge b o)).at? way) := by
  induction way generalizing b o with
  | nil => exact mergedAt_nil b o
  | cons name rest ih =>
    rw [Value.at?_cons]
    cases hv : Dict.find? o name with
    | none =>
      rw [find?_merge_of_none ho.1 b hv]
      exact mergedAt_cons_of_none hv
    | some v =>
      rw [find?_merge_of_some ho.1 b hv, Option.bind_some]
      by_cases hboth : ∃ m n, Dict.find? b name = some (.object m) ∧ v = .object n
      · obtain ⟨m, n, hm, rfl⟩ := hboth
        rw [hm, mergeValue_object]
        exact mergedAt_cons_of_objects hm hv (ih (ordered_of_find? ho hv) m)
      · have hapart : ∀ m n, Dict.find? b name = some (.object m) → v ≠ .object n :=
          fun m n hm hn => hboth ⟨m, n, hm, hn⟩
        rw [mergeValue_of_apart hapart]
        exact mergedAt_cons_of_apart hv hapart

/-! ### All together -/

structure Merging (b o : Options) : Prop where
  found : ∀ way, MergedAt b o way ((Value.object (merge b o)).at? way)
  ordered : (Value.object (merge b o)).Ordered
  nothing_over : merge b [] = b
  over_nothing : merge [] o = o
  again : merge (merge b o) o = merge b o

/-- All maps that are read have their names in order, and so has everything in them. -/
theorem merging_of_ordered (hb : (Value.object b).Ordered) (ho : (Value.object o).Ordered) :
    Merging b o where
  found := mergedAt ho b
  ordered := ordered_merge hb ho
  nothing_over := merge_nil b
  over_nothing := nil_merge ho.1
  again := merge_merge hb ho

/-- An object over a number, a number over an object, and two objects of which one has more. -/
theorem merging_of_sample :
    let b : Options := [("a", .nat 1), ("n", .object [("x", .nat 1), ("y", .object [])]),
      ("z", .object [("k", .null)])]
    let o : Options := [("a", .object [("k", .null)]), ("n", .object [("y", .nat 2)]),
      ("z", .nat 3)]
    (Value.object b).Ordered ∧ (Value.object o).Ordered ∧
      merge b o = [("a", .object [("k", .null)]), ("n", .object [("x", .nat 1), ("y", .nat 2)]),
        ("z", .nat 3)] ∧ Merging b o := by
  intro b o
  have hb : (Value.object b).Ordered := by
    simp only [b, Value.Ordered, OrderedMembers, Dict.Ordered, Value.nat]
    decide
  have ho : (Value.object o).Ordered := by
    simp only [o, Value.Ordered, OrderedMembers, Dict.Ordered, Value.nat]
    decide
  exact ⟨hb, ho, by rfl, merging_of_ordered hb ho⟩

end Options
end TaskGen
