import Mathlib.Data.List.Induction
import TaskGen.Proofs.Catalog.Traversal
import TaskGen.Proofs.Dict
import TaskGen.Proofs.Pairs

/-!
What a tree of requirements comes to, said node by node.  The first node with which something is
wrong settles what is said of the tree, and a tree without such a node has one requirement for each
node without children.

Main statement: `flattening`.
-/

namespace TaskGen
namespace Catalog

/-! ### What is wrong with a node -/

section
variable (templates : Templates) (base : Option String)

/-- The node has an identifier, and the template that it names is described. -/
structure Occurrence.Named (o : Occurrence) : Prop where
  identified : o.node.identifier.isSome = true
  described : ∀ t, o.node.template = some t → Dict.contains templates t = true

/-- What is wrong with a node, given the nodes that come before it.  Of two faults the one that is
checked first counts. -/
inductive Offence (before : List Occurrence) (o : Occurrence) : Error → Prop where
  | noIdentifier (missing : o.node.identifier = none) :
    Offence before o (.malformedTree (.noIdentifier (joined o.above)))
  | unknownTemplate {t : String} (identified : o.node.identifier.isSome = true)
    (names : o.node.template = some t) (unknown : Dict.contains templates t = false) :
    Offence before o (.unknownTemplate t o.id)
  | childrenAndPlugins (named : o.Named templates) (inner : o.isLeaf = false)
    (overrides : o.node.plugins.isSome = true) :
    Offence before o (.malformedTree (.childrenAndPlugins o.id))
  | noTemplate (named : o.Named templates) (leaf : o.isLeaf = true)
    (missing : o.template? base = none) : Offence before o (.noTemplate o.id)
  | repeated (named : o.Named templates) (leaf : o.isLeaf = true)
    (found : (o.template? base).isSome = true)
    (earlier : ∃ o' ∈ before, o'.isLeaf = true ∧ o'.id = o.id) :
    Offence before o (.malformedTree (.repeated o.id))

def Faultless (os : List Occurrence) : Prop :=
  ∀ before o after, os = before ++ o :: after → ∀ e, ¬ Offence templates base before o e

def FirstOffence (os : List Occurrence) (e : Error) : Prop :=
  ∃ before o after, os = before ++ o :: after ∧ Faultless templates base before ∧
    Offence templates base before o e

/-- What a catalog keeps of a node without children. -/
structure IsEntry (o : Occurrence) (p : String × Leaf) : Prop where
  id : p.1 = o.id
  template : o.template? base = some p.2.template
  overrides : p.2.overrides = o.node.plugins.getD []

/-- One entry for each node without children, sorted by the identifiers. -/
structure Inventory (os : List Occurrence) (leaves : Dict Leaf) : Prop where
  ordered : Dict.Ordered leaves
  entries : ∃ entries, leaves.Perm entries ∧
    List.Forall₂ (IsEntry base) (os.filter (·.isLeaf)) entries

end

variable {templates : Templates} {base : Option String} {os : List Occurrence} {o : Occurrence}
  {leaves : Dict Leaf}

theorem Inventory.nil (base : Option String) : Inventory base [] [] :=
  ⟨.nil, [], .refl _, .nil⟩

theorem Inventory.contains_iff (h : Inventory base os leaves) (id : String) :
    Dict.contains leaves id = true ↔ ∃ o ∈ os, o.isLeaf = true ∧ o.id = id := by
  obtain ⟨entries, hperm, hentries⟩ := h.entries
  rw [Dict.contains_iff, Dict.keys, List.mem_map]
  constructor
  · rintro ⟨p, hp, rfl⟩
    obtain ⟨o, ho, hentry⟩ := exists_of_forall₂ hentries.flip p (hperm.mem_iff.1 hp)
    obtain ⟨hmem, hleaf⟩ := List.mem_filter.1 ho
    exact ⟨o, hmem, hleaf, hentry.id.symm⟩
  · rintro ⟨o, ho, hleaf, rfl⟩
    obtain ⟨p, hp, hentry⟩ := exists_of_forall₂ hentries o (List.mem_filter.2 ⟨ho, hleaf⟩)
    exact ⟨p, hperm.mem_iff.2 hp, hentry.id⟩

theorem Inventory.skip (h : Inventory base os leaves) (inner : o.isLeaf = false) :
    Inventory base (os ++ [o]) leaves := by
  refine ⟨h.ordered, ?_⟩
  rw [List.filter_append, List.filter_cons_of_neg (by simp [inner]), List.filter_nil,
    List.append_nil]
  exact h.entries

theorem Inventory.insert (h : Inventory base os leaves) (leaf : o.isLeaf = true) {t : String}
    (template : o.template? base = some t) (fresh : Dict.contains leaves o.id = false) :
    Inventory base (os ++ [o]) (Dict.insert leaves o.id ⟨t, o.node.plugins.getD []⟩) := by
  obtain ⟨entries, hperm, hentries⟩ := h.entries
  have hnone : Dict.find? leaves o.id = none := by simpa [Dict.contains] using fresh
  obtain ⟨front, back, hleaves, hinsert⟩ := Dict.insert_of_find?_none hnone
  refine ⟨h.ordered.insert _ _, entries ++ [(o.id, ⟨t, o.node.plugins.getD []⟩)], ?_, ?_⟩
  · rw [hinsert]
    rw [hleaves] at hperm
    exact (List.perm_middle.trans (hperm.cons _)).trans (List.perm_append_singleton _ _).symm
  · rw [List.filter_append, List.filter_cons_of_pos leaf, List.filter_nil]
    exact List.rel_append hentries (.cons ⟨rfl, template, rfl⟩ .nil)

theorem checkTemplate_error_iff {template : Option String} {referrer : String} {e : Error} :
    checkTemplate templates template referrer = .error e ↔
      ∃ t, template = some t ∧ Dict.contains templates t = false ∧
        e = .unknownTemplate t referrer := by
  cases template with
  | none => simp [checkTemplate]
  | some t =>
    rw [checkTemplate]
    cases hknown : Dict.contains templates t with
    | true => simp [hknown]
    | false =>
      simp only [Bool.false_eq_true, if_false, Except.error.injEq, Option.some.injEq,
        exists_eq_left', hknown, true_and]
      exact eq_comm

theorem checkTemplate_of_described {template : Option String} (referrer : String)
    (h : ∀ t, template = some t → Dict.contains templates t = true) :
    checkTemplate templates template referrer = .ok () := by
  cases hcheck : checkTemplate templates template referrer with
  | ok u => rfl
  | error e =>
    obtain ⟨t, ht, hunknown, _⟩ := checkTemplate_error_iff.1 hcheck
    rw [h t ht] at hunknown
    cases hunknown

section
variable (base) (leaves)

theorem read_of_inner (named : o.Named templates) (inner : o.isLeaf = false) :
    o.read templates base leaves =
      if o.node.plugins.isSome = true then .error (.malformedTree (.childrenAndPlugins o.id))
      else .ok leaves := by
  obtain ⟨own, hown⟩ := Option.isSome_iff_exists.1 named.identified
  obtain ⟨children, hchildren⟩ := Option.isSome_iff_exists.1 (Option.isNone_eq_false_iff.1 inner)
  rw [Occurrence.read, hown, hchildren]
  simp only [checkTemplate_of_described o.id named.described]
  rfl

theorem read_of_leaf (named : o.Named templates) (leaf : o.isLeaf = true) {t : String}
    (template : o.template? base = some t) : o.read templates base leaves =
      if Dict.contains leaves o.id = true then .error (.malformedTree (.repeated o.id))
      else .ok (Dict.insert leaves o.id ⟨t, o.node.plugins.getD []⟩) := by
  obtain ⟨own, hown⟩ := Option.isSome_iff_exists.1 named.identified
  have hchildren : o.node.children = none := Option.isNone_iff_eq_none.1 leaf
  rw [Occurrence.read, hown, hchildren, template]
  simp only [checkTemplate_of_described o.id named.described]
  rfl

theorem read_of_no_template (named : o.Named templates) (leaf : o.isLeaf = true)
    (missing : o.template? base = none) :
    o.read templates base leaves = .error (.noTemplate o.id) := by
  obtain ⟨own, hown⟩ := Option.isSome_iff_exists.1 named.identified
  have hchildren : o.node.children = none := Option.isNone_iff_eq_none.1 leaf
  rw [Occurrence.read, hown, hchildren, missing]
  simp only [checkTemplate_of_described o.id named.described]
  rfl

end

/-- What is wrong with a node is what reading it says. -/
theorem Inventory.read_error_iff (h : Inventory base os leaves) (o : Occurrence) (e : Error) :
    o.read templates base leaves = .error e ↔ Offence templates base os o e := by
  constructor
  · intro hread
    cases hidentifier : o.node.identifier with
    | none =>
      rw [Occurrence.read, hidentifier] at hread
      cases hread
      exact .noIdentifier hidentifier
    | some own =>
      have hidentified : o.node.identifier.isSome = true := by rw [hidentifier]; rfl
      cases hcheck : checkTemplate templates o.node.template o.id with
      | error e' =>
        rw [Occurrence.read, hidentifier] at hread
        simp only [hcheck] at hread
        cases hread
        obtain ⟨t, ht, hunknown, rfl⟩ := checkTemplate_error_iff.1 hcheck
        exact .unknownTemplate hidentified ht hunknown
      | ok u =>
        have hnamed : o.Named templates := ⟨hidentified, contains_of_checkTemplate hcheck⟩
        cases hleaf : o.isLeaf with
        | false =>
          rw [read_of_inner base leaves hnamed hleaf] at hread
          split at hread
          · next hplugins =>
            cases hread
            exact .childrenAndPlugins hnamed hleaf hplugins
          · cases hread
        | true =>
          cases htemplate : o.template? base with
          | none =>
            rw [read_of_no_template base leaves hnamed hleaf htemplate] at hread
            cases hread
            exact .noTemplate hnamed hleaf htemplate
          | some t =>
            rw [read_of_leaf base leaves hnamed hleaf htemplate] at hread
            split at hread
            · next hknown =>
              cases hread
              refine .repeated hnamed hleaf (by rw [htemplate]; rfl) ?_
              exact (h.contains_iff o.id).1 hknown
            · cases hread
  · rintro (hmissing | ⟨hidentified, hnames, hunknown⟩ | ⟨hnamed, hinner, hplugins⟩ |
      ⟨hnamed, hleaf, hmissing⟩ | ⟨hnamed, hleaf, hfound, hearlier⟩)
    · rw [Occurrence.read, hmissing]
    · obtain ⟨own, hown⟩ := Option.isSome_iff_exists.1 hidentified
      have hcheck : checkTemplate templates o.node.template o.id = .error _ :=
        checkTemplate_error_iff.2 ⟨_, hnames, hunknown, rfl⟩
      rw [Occurrence.read, hown]
      simp only [hcheck]
      rfl
    · rw [read_of_inner base leaves hnamed hinner, if_pos hplugins]
    · exact read_of_no_template base leaves hnamed hleaf hmissing
    · obtain ⟨t, ht⟩ := Option.isSome_iff_exists.1 hfound
      rw [read_of_leaf base leaves hnamed hleaf ht, if_pos ((h.contains_iff o.id).2 hearlier)]

/-- A node that is read is collected if it is a requirement. -/
theorem Inventory.read (h : Inventory base os leaves) {leaves' : Dict Leaf}
    (hread : o.read templates base leaves = .ok leaves') : Inventory base (os ++ [o]) leaves' := by
  have hnamed : o.Named templates := by
    cases hidentifier : o.node.identifier with
    | none =>
      rw [Occurrence.read, hidentifier] at hread
      cases hread
    | some own =>
      rw [Occurrence.read, hidentifier] at hread
      obtain ⟨_, hcheck, _⟩ := exists_of_bind_ok hread
      exact ⟨by rw [hidentifier]; rfl, contains_of_checkTemplate hcheck⟩
  cases hleaf : o.isLeaf with
  | false =>
    rw [read_of_inner base leaves hnamed hleaf] at hread
    split at hread
    · cases hread
    · cases hread
      exact h.skip hleaf
  | true =>
    cases htemplate : o.template? base with
    | none =>
      rw [read_of_no_template base leaves hnamed hleaf htemplate] at hread
      cases hread
    | some t =>
      rw [read_of_leaf base leaves hnamed hleaf htemplate] at hread
      split at hread
      · cases hread
      · next hfresh =>
        cases hread
        exact h.insert hleaf htemplate (Bool.eq_false_iff.2 hfresh)

/-- Reading nodes one after the other stops at the first one with which something is wrong. -/
inductive Gathered (templates : Templates) (base : Option String) (os : List Occurrence) :
    Except Error (Dict Leaf) → Prop where
  | all {leaves : Dict Leaf} (faultless : Faultless templates base os)
    (inventory : Inventory base os leaves) : Gathered templates base os (.ok leaves)
  | stopped {e : Error} (first : FirstOffence templates base os e) :
    Gathered templates base os (.error e)

theorem faultless_concat (hos : Faultless templates base os)
    (ho : ∀ e, ¬ Offence templates base os o e) : Faultless templates base (os ++ [o]) := by
  intro before o' after heq
  rcases cases_of_concat_eq heq with ⟨rfl, rfl, _⟩ | ⟨init, hfront, _⟩
  · exact ho
  · exact hos before o' init hfront

theorem gathered_foldlM (os : List Occurrence) :
    Gathered templates base os (os.foldlM (Occurrence.read templates base) []) := by
  induction os using List.reverseRecOn with
  | nil => exact .all (fun before o after heq => by simp at heq) (.nil base)
  | append_singleton os o ih =>
    rw [List.foldlM_append]
    generalize os.foldlM (Occurrence.read templates base) [] = result at ih ⊢
    cases ih with
    | stopped first =>
      obtain ⟨before, o', after, rfl, hbefore, ho'⟩ := first
      exact .stopped ⟨before, o', after ++ [o], by simp, hbefore, ho'⟩
    | @all leaves faultless inventory =>
      show Gathered templates base (os ++ [o])
        ([o].foldlM (Occurrence.read templates base) leaves)
      rw [List.foldlM_cons]
      cases hread : o.read templates base leaves with
      | error e =>
        exact .stopped ⟨os, o, [], rfl, faultless, (inventory.read_error_iff o e).1 hread⟩
      | ok leaves' =>
        refine .all (faultless_concat faultless fun e he => ?_) (inventory.read hread)
        rw [(inventory.read_error_iff o e).2 he] at hread
        cases hread

theorem foldlM_of_firstOffence {e : Error} (h : FirstOffence templates base os e) :
    os.foldlM (Occurrence.read templates base) [] = .error e := by
  obtain ⟨before, o, after, rfl, hbefore, ho⟩ := h
  have hgathered : Gathered templates base before _ := gathered_foldlM before
  rw [List.foldlM_append]
  generalize before.foldlM (Occurrence.read templates base) [] = result at hgathered ⊢
  cases hgathered with
  | stopped first =>
    obtain ⟨front, o', back, heq, _, ho'⟩ := first
    exact (hbefore front o' back heq _ ho').elim
  | all _ inventory =>
    show (o :: after).foldlM (Occurrence.read templates base) _ = _
    rw [List.foldlM_cons, (inventory.read_error_iff o e).2 ho]
    rfl

/-! ### Trees -/

inductive TreeOffence (templates : Templates) (root : Node) : Error → Prop where
  | unknownTemplate {t : String} (names : root.template = some t)
    (unknown : Dict.contains templates t = false) :
    TreeOffence templates root (.unknownTemplate t "requirement specifications")
  | noRequirements (described : ∀ t, root.template = some t → Dict.contains templates t = true)
    (missing : root.children = none) : TreeOffence templates root (.malformedTree .noRequirements)
  | node (described : ∀ t, root.template = some t → Dict.contains templates t = true)
    (inner : root.children.isSome = true) {e : Error}
    (first : FirstOffence templates root.template root.occurrences e) :
    TreeOffence templates root e

/-- A tree is read unless something is wrong with it. -/
theorem tree_cases (templates : Templates) (root : Node) :
    (∃ e, gatherTree templates root = .error e ∧ TreeOffence templates root e) ∨
      ∃ leaves, gatherTree templates root = .ok leaves ∧
        Inventory root.template root.occurrences leaves ∧
        Faultless templates root.template root.occurrences ∧
        ∀ e, ¬ TreeOffence templates root e := by
  cases hcheck : checkTemplate templates root.template "requirement specifications" with
  | error e =>
    obtain ⟨t, ht, hunknown, rfl⟩ := checkTemplate_error_iff.1 hcheck
    refine .inl ⟨_, ?_, .unknownTemplate ht hunknown⟩
    rw [gatherTree, hcheck]
    rfl
  | ok u =>
    have hdescribed := contains_of_checkTemplate hcheck
    cases hchildren : root.children with
    | none =>
      refine .inl ⟨_, ?_, .noRequirements hdescribed hchildren⟩
      rw [gatherTree, hcheck, hchildren]
      rfl
    | some children =>
      have hinner : root.children.isSome = true := by rw [hchildren]; rfl
      rw [gatherTree_eq_foldlM hcheck hinner]
      have hgathered : Gathered templates root.template root.occurrences _ :=
        gathered_foldlM root.occurrences
      generalize root.occurrences.foldlM (Occurrence.read templates root.template) [] = result
        at hgathered ⊢
      cases hgathered with
      | stopped first => exact .inl ⟨_, rfl, .node hdescribed hinner first⟩
      | all faultless inventory =>
        refine .inr ⟨_, rfl, inventory, faultless, fun e he => ?_⟩
        cases he with
        | unknownTemplate names unknown =>
          rw [hdescribed _ names] at unknown
          cases unknown
        | noRequirements _ missing =>
          rw [missing] at hinner
          cases hinner
        | node _ _ first =>
          obtain ⟨before, o, after, heq, _, ho⟩ := first
          exact faultless before o after heq e ho

theorem gatherTree_of_offence {templates : Templates} {root : Node} {e : Error}
    (h : TreeOffence templates root e) : gatherTree templates root = .error e := by
  cases h with
  | unknownTemplate names unknown =>
    rw [gatherTree, checkTemplate_error_iff.2 ⟨_, names, unknown, rfl⟩]
    rfl
  | noRequirements described missing =>
    rw [gatherTree, checkTemplate_of_described _ described, missing]
    rfl
  | node described inner first =>
    rw [gatherTree_eq_foldlM (checkTemplate_of_described _ described) inner]
    exact foldlM_of_firstOffence first

/-- The requirements of a tree, worked off from a stack, are those of a recursion over it. -/
structure Flattening (templates : Templates) (root : Node) : Prop where
  stack : flattenStack templates root = flatten templates root
  recursive : flatten templates root = gatherTree templates root
  error_iff : ∀ e, flatten templates root = .error e ↔ TreeOffence templates root e
  ok_of_faultless : (∀ e, ¬ TreeOffence templates root e) →
    ∃ leaves, flatten templates root = .ok leaves ∧
      Inventory root.template root.occurrences leaves

theorem flattening (templates : Templates) (root : Node) : Flattening templates root where
  stack := flattenStack_eq_flatten templates root
  recursive := flatten_eq_gatherTree templates root
  error_iff e := by
    rw [flatten_eq_gatherTree]
    refine ⟨fun h => ?_, gatherTree_of_offence⟩
    rcases tree_cases templates root with ⟨e', he', hoffence⟩ | ⟨leaves, hleaves, _⟩
    · rw [he'] at h
      cases h
      exact hoffence
    · rw [hleaves] at h
      cases h
  ok_of_faultless hfaultless := by
    rw [flatten_eq_gatherTree]
    rcases tree_cases templates root with ⟨e, _, hoffence⟩ | ⟨leaves, hleaves, hinventory, _⟩
    · exact (hfaultless e hoffence).elim
    · exact ⟨leaves, hleaves, hinventory⟩

end Catalog
end TaskGen
