import TaskGen.Proofs.Catalog.Flattening

/-!
The identifiers of the requirements of a catalog.  A node of the tree puts its own identifier and
a colon in front of what is below it, but for the nodes at the top of the tree an empty identifier
cannot be told from none.  So the empty identifiers with which a way begins are lost, with their
colons.

Main statement: `naming_of_parse`.
-/

namespace TaskGen
namespace Catalog

/-! ### Joined identifiers -/

theorem foldl_joinIdentifier {path : String} (h : path ≠ "") (ids : List String) :
    ids.foldl joinIdentifier path = ":".intercalate (path :: ids) := by
  induction ids generalizing path with
  | nil => exact String.intercalate_singleton.symm
  | cons own ids ih =>
    have hjoin : joinIdentifier path own = path ++ ":" ++ own := by simp [joinIdentifier, h]
    have hne : path ++ ":" ++ own ≠ "" := by simp [h]
    rw [List.foldl_cons, hjoin, ih hne, String.append_assoc, String.intercalate_cons_append,
      String.intercalate_cons_append, String.intercalate_cons_cons, String.append_assoc]

/-- Empty identifiers at the beginning are lost. -/
theorem foldl_joinIdentifier_empty (ids : List String) :
    ids.foldl joinIdentifier "" = ":".intercalate (ids.dropWhile (· = "")) := by
  induction ids with
  | nil => rfl
  | cons own ids ih =>
    have hjoin : joinIdentifier "" own = own := rfl
    rw [List.foldl_cons, hjoin]
    by_cases hown : own = ""
    · rw [hown, List.dropWhile_cons_of_pos (by simp)]
      exact ih
    · rw [List.dropWhile_cons_of_neg (by simpa using hown)]
      exact foldl_joinIdentifier hown ids

theorem length_intercalate_cons (own : String) {ids : List String} (h : ids ≠ []) :
    (":".intercalate (own :: ids)).length = own.length + 1 + (":".intercalate ids).length := by
  obtain ⟨next, rest, rfl⟩ := List.exists_cons_of_ne_nil h
  rw [String.intercalate_cons_cons, String.length_append, String.length_append]
  rfl

theorem length_intercalate_dropWhile_le (ids : List String) :
    (":".intercalate (ids.dropWhile (· = ""))).length ≤ (":".intercalate ids).length := by
  induction ids with
  | nil => exact Nat.le_refl _
  | cons own ids ih =>
    by_cases hown : own = ""
    · rw [List.dropWhile_cons_of_pos (by simpa using hown)]
      by_cases hids : ids = []
      · subst hids
        exact Nat.zero_le _
      · rw [length_intercalate_cons own hids]
        omega
    · rw [List.dropWhile_cons_of_neg (by simpa using hown)]

/-- Nothing is lost without an empty identifier at the beginning, or if there is no other. -/
theorem intercalate_dropWhile_eq_iff (ids : List String) :
    ":".intercalate (ids.dropWhile (· = "")) = ":".intercalate ids ↔
      ids.head? ≠ some "" ∨ ids.length = 1 := by
  cases ids with
  | nil => simp
  | cons own ids =>
    by_cases hown : own = ""
    · subst hown
      rw [List.dropWhile_cons_of_pos (by simp)]
      by_cases hids : ids = []
      · subst hids
        simp
      · have hlost := length_intercalate_dropWhile_le ids
        have hall := length_intercalate_cons "" hids
        have hne : ":".intercalate (ids.dropWhile (· = "")) ≠ ":".intercalate ("" :: ids) := by
          intro heq
          rw [heq] at hlost
          omega
        simp [hne, hids]
    · rw [List.dropWhile_cons_of_neg (by simpa using hown)]
      simp [hown]

/-! ### Ways -/

mutual
theorem exists_of_mem_way {above : List Node} {n : Node} {o : Occurrence} {m : Node}
    (ho : o ∈ n.preorder above) (hm : m ∈ o.way) :
    m ∈ above ∨ ∃ o' ∈ n.preorder above, o'.node = m := by
  obtain ⟨identifier, template, children, plugins⟩ := n
  cases children with
  | none =>
    rw [Node.preorder, List.mem_singleton] at ho
    subst ho
    rcases List.mem_append.1 hm with habove | hself
    · exact .inl habove
    · exact .inr ⟨_, List.mem_singleton_self _, (List.mem_singleton.1 hself).symm⟩
  | some children =>
    rw [Node.preorder] at ho ⊢
    have hhead : ∀ m', m' ∈ above ++ [.mk identifier template (some children) plugins] →
        m' ∈ above ∨ ∃ o' ∈ ⟨above, .mk identifier template (some children) plugins⟩ ::
          preorderAll (above ++ [.mk identifier template (some children) plugins]) children,
          o'.node = m' := by
      intro m' hm'
      rcases List.mem_append.1 hm' with habove | hself
      · exact .inl habove
      · exact .inr ⟨_, List.mem_cons_self, (List.mem_singleton.1 hself).symm⟩
    rcases List.mem_cons.1 ho with rfl | hbelow
    · exact hhead m hm
    · rcases exists_of_mem_way_all hbelow hm with habove | ⟨o', ho', hnode⟩
      · exact hhead m habove
      · exact .inr ⟨o', List.mem_cons_of_mem _ ho', hnode⟩

theorem exists_of_mem_way_all {above : List Node} {nodes : List Node} {o : Occurrence} {m : Node}
    (ho : o ∈ preorderAll above nodes) (hm : m ∈ o.way) :
    m ∈ above ∨ ∃ o' ∈ preorderAll above nodes, o'.node = m := by
  cases nodes with
  | nil => cases ho
  | cons n nodes =>
    rw [preorderAll] at ho ⊢
    rcases List.mem_append.1 ho with hfirst | hrest
    · rcases exists_of_mem_way hfirst hm with habove | ⟨o', ho', hnode⟩
      · exact .inl habove
      · exact .inr ⟨o', List.mem_append_left _ ho', hnode⟩
    · rcases exists_of_mem_way_all hrest hm with habove | ⟨o', ho', hnode⟩
      · exact .inl habove
      · exact .inr ⟨o', List.mem_append_right _ ho', hnode⟩
end

/-- The nodes on the way to a node of a tree are themselves nodes of the tree. -/
theorem Node.exists_of_mem_way {root : Node} {o : Occurrence} {m : Node}
    (ho : o ∈ root.occurrences) (hm : m ∈ o.way) : ∃ o' ∈ root.occurrences, o'.node = m := by
  rcases exists_of_mem_way_all ho hm with hnone | hfound
  · cases hnone
  · exact hfound

theorem Faultless.identified {templates : Templates} {base : Option String} {os : List Occurrence}
    (h : Faultless templates base os) {o : Occurrence} (ho : o ∈ os) :
    o.node.identifier.isSome = true := by
  obtain ⟨before, after, heq⟩ := List.append_of_mem ho
  cases hidentifier : o.node.identifier with
  | some own => rfl
  | none => exact (h before o after heq _ (.noIdentifier hidentifier)).elim

/-- The identifiers of nodes that have one. -/
theorem exists_identifiers {nodes : List Node}
    (h : ∀ n ∈ nodes, n.identifier.isSome = true) :
    ∃ ids : List String, nodes.map Node.identifier = ids.map some := by
  induction nodes with
  | nil => exact ⟨[], rfl⟩
  | cons n nodes ih =>
    obtain ⟨own, hown⟩ := Option.isSome_iff_exists.1 (h n List.mem_cons_self)
    obtain ⟨ids, hids⟩ := ih fun m hm => h m (List.mem_cons_of_mem n hm)
    exact ⟨own :: ids, by rw [List.map_cons, List.map_cons, hown, hids]⟩

theorem joined_of_identified {nodes : List Node} {ids : List String}
    (h : nodes.map Node.identifier = ids.map some) :
    joined nodes = ":".intercalate (ids.dropWhile (· = "")) := by
  have hids : nodes.filterMap Node.identifier = ids := by
    have hsome : (nodes.map Node.identifier).filterMap (fun own => own) =
        (ids.map some).filterMap (fun own => own) := by rw [h]
    simpa [List.filterMap_map, Function.comp_def] using hsome
  rw [joined, hids, foldl_joinIdentifier_empty]

/-! ### Catalogs -/

/-- The nodes without children. -/
def Node.requirements (root : Node) : List Occurrence := root.occurrences.filter (·.isLeaf)

structure Naming (c : Catalog) (root : Node) : Prop where
  sorted : c.identifiers.Pairwise (· < ·)
  all : c.identifiers.Perm (root.requirements.map (·.id))
  way : ∀ o ∈ root.requirements, ∃ ids : List String, ids ≠ [] ∧
    o.way.map Node.identifier = ids.map some ∧
    o.id = ":".intercalate (ids.dropWhile (· = "")) ∧
    (o.id = ":".intercalate ids ↔ ids.head? ≠ some "" ∨ ids.length = 1)

theorem ids_of_entries {base : Option String} {os : List Occurrence}
    {entries : List (String × Leaf)} (h : List.Forall₂ (IsEntry base) os entries) :
    entries.map (·.1) = os.map (·.id) := by
  induction h with
  | nil => rfl
  | cons hentry _ ih => rw [List.map_cons, List.map_cons, hentry.id, ih]

theorem Inventory.perm_keys {base : Option String} {os : List Occurrence} {leaves : Dict Leaf}
    (h : Inventory base os leaves) :
    (Dict.keys leaves).Perm ((os.filter (·.isLeaf)).map (·.id)) := by
  obtain ⟨entries, hperm, hentries⟩ := h.entries
  rw [← ids_of_entries hentries]
  exact hperm.map (·.1)

theorem naming_of_flatten {c : Catalog} {templates : Templates} {root : Node}
    (h : flatten templates root = .ok c.leaves) : Naming c root := by
  rw [flatten_eq_gatherTree] at h
  rcases tree_cases templates root with ⟨e, he, _⟩ | ⟨leaves, hleaves, hinventory, hfaultless, _⟩
  · rw [he] at h
    cases h
  · rw [hleaves] at h
    cases h
    refine ⟨hinventory.ordered.pairwise_keys, hinventory.perm_keys, fun o ho => ?_⟩
    have hmem := (List.mem_filter.1 ho).1
    have hidentified : ∀ m ∈ o.way, m.identifier.isSome = true := by
      intro m hm
      obtain ⟨o', ho', rfl⟩ := Node.exists_of_mem_way hmem hm
      exact hfaultless.identified ho'
    obtain ⟨ids, hids⟩ := exists_identifiers hidentified
    have hne : ids ≠ [] := by
      rintro rfl
      simp [Occurrence.way] at hids
    refine ⟨ids, hne, hids, joined_of_identified hids, ?_⟩
    rw [Occurrence.id, joined_of_identified hids]
    exact intercalate_dropWhile_eq_iff ids

theorem naming_of_parse {text : String} {c : Catalog} (h : Catalog.parse text = .ok c) :
    ∃ s root, Source.parse text = .ok s ∧ s.root = some root ∧ Naming c root := by
  obtain ⟨s, hs, hsource⟩ := exists_of_bind_ok h
  obtain ⟨_, root, _, hroot, _, hleaves⟩ := parts_of_ofSource hsource
  exact ⟨s, root, hs, hroot, naming_of_flatten hleaves⟩

/-- Requirements on the ways `""`, `"a"` and `"kernel"`, `""`. -/
def namelessText : String :=
  let node := fun id children => Json.Value.object [("children", .array children),
    ("identifier", .string id)]
  let requirement := fun id => Json.Value.object [("identifier", .string id)]
  (Json.Value.object [
    ("requirement specifications", .object [("children", .array [
        node "" [requirement "a"], node "kernel" [requirement ""]]),
      ("template", .string "t")]),
    ("templates", .object [("t", .object [("plugins", .array [])])])]).compact

set_option maxRecDepth 100000 in
theorem exists_nameless : ∃ c, Catalog.parse namelessText = .ok c ∧
    c.identifiers = ["a", "kernel:"] := by
  have hrun : (Catalog.parse namelessText).toOption.map (·.identifiers) =
      some ["a", "kernel:"] := by
    decide +kernel
  exact exists_of_toOption_map hrun

theorem naming_of_nameless : ∃ c s root, Catalog.parse namelessText = .ok c ∧
    c.identifiers = ["a", "kernel:"] ∧ Source.parse namelessText = .ok s ∧ s.root = some root ∧
    Naming c root := by
  obtain ⟨c, hparse, hids⟩ := exists_nameless
  obtain ⟨s, root, hs, hroot, hnaming⟩ := naming_of_parse hparse
  exact ⟨c, s, root, hparse, hids, hs, hroot, hnaming⟩

set_option maxRecDepth 100000 in
/-- A requirement below a node with an empty identifier is not called by its whole way. -/
theorem empty_identifier_lost : ∃ c s root, Catalog.parse namelessText = .ok c ∧
    Source.parse namelessText = .ok s ∧ s.root = some root ∧ ∃ o ∈ root.requirements,
      o.way.map Node.identifier = ["", "a"].map some ∧ o.id = "a" ∧
      ":".intercalate ["", "a"] = ":a" ∧ ":a" ∉ c.identifiers := by
  obtain ⟨c, hparse, hids⟩ := exists_nameless
  have hrun : (Source.parse namelessText).toOption.map (fun s => s.root.map fun root =>
      root.requirements.map fun o => (o.way.map Node.identifier, o.id)) =
      some (some [([some "", some "a"], "a"), ([some "kernel", some ""], "kernel:")]) := by
    decide +kernel
  obtain ⟨s, hs, hways⟩ := exists_of_toOption_map hrun
  obtain ⟨root, hroot, hrequirements⟩ := Option.map_eq_some_iff.1 hways
  have hmem : ([some "", some "a"], "a") ∈
      root.requirements.map fun o => (o.way.map Node.identifier, o.id) := by
    rw [hrequirements]
    exact List.mem_cons_self
  obtain ⟨o, ho, hway⟩ := List.mem_map.1 hmem
  obtain ⟨hids', hid⟩ := Prod.mk.inj hway
  refine ⟨c, s, root, hparse, hs, hroot, o, ho, hids', hid, by decide, ?_⟩
  rw [hids]
  decide

end Catalog
end TaskGen
