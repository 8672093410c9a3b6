import Mathlib.Data.List.Basic
import TaskGen.Catalog.Source

/-!
What is read from a text.  The objects in a catalog have their members in order, however they
are written.

Main statement: `ordered_of_parse`.
-/

namespace TaskGen

open Json

namespace Json

/-! ### Values -/

theorem orderedItems_of_forall {items : List Value} (h : ∀ v ∈ items, v.Ordered) :
    OrderedItems items := by
  induction items with
  | nil => trivial
  | cons v items ih =>
    exact ⟨h v List.mem_cons_self, ih fun w hw => h w (List.mem_cons_of_mem v hw)⟩

theorem orderedMembers_iff {members : List (String × Value)} :
    OrderedMembers members ↔ ∀ p ∈ members, p.2.Ordered := by
  induction members with
  | nil => simp [OrderedMembers]
  | cons p members ih => simp [OrderedMembers, ih]

theorem Value.Ordered.of_mem {members : List (String × Value)} (h : (object members).Ordered)
    {name : String} {v : Value} (mem : (name, v) ∈ members) : v.Ordered :=
  orderedMembers_iff.1 h.2 (name, v) mem

namespace Document

theorem orderedMembers_ofList {pairs : List (String × Value)} (h : ∀ p ∈ pairs, p.2.Ordered) :
    OrderedMembers (Dict.ofList pairs) := by
  have hfold : ∀ d : Dict Value, OrderedMembers d →
      OrderedMembers (pairs.foldl (fun d p => Dict.insert d p.1 p.2) d) := by
    induction pairs with
    | nil => exact fun d hd => hd
    | cons p pairs ih =>
      intro d hd
      refine ih (fun q hq => h q (List.mem_cons_of_mem p hq)) _ ?_
      rw [orderedMembers_iff] at hd ⊢
      intro q hq
      rcases Dict.mem_of_mem_insert hq with rfl | hold
      · exact h p List.mem_cons_self
      · exact hd q hold
  exact hfold [] trivial

theorem ordered_of_value? (d : Document) : ∀ v, d.value? = some v → v.Ordered := by
  refine @Document.rec (fun d => ∀ v, d.value? = some v → v.Ordered)
    (fun ds => ∀ vs, itemValues? ds = some vs → ∀ v ∈ vs, v.Ordered)
    (fun ms => ∀ ps, memberValues? ms = some ps → ∀ p ∈ ps, p.2.Ordered)
    (fun m => ∀ v, m.2.value? = some v → v.Ordered) ?null ?bool ?number ?string ?array ?object
    ?noItems ?item ?noMembers ?member ?pair d
  case null =>
    intro v h
    cases h
    trivial
  case bool =>
    intro b v h
    cases h
    trivial
  case number =>
    intro n v h
    obtain ⟨a, _, rfl⟩ := Option.map_eq_some_iff.1 h
    trivial
  case string =>
    intro s v h
    obtain ⟨a, _, rfl⟩ := Option.map_eq_some_iff.1 h
    trivial
  case array =>
    intro level items ih v h
    rw [value?] at h
    split at h
    · obtain ⟨vs, hvs, rfl⟩ := Option.map_eq_some_iff.1 h
      exact orderedItems_of_forall (ih vs hvs)
    · cases h
  case object =>
    intro level members ih v h
    rw [value?] at h
    split at h
    · obtain ⟨ps, hps, rfl⟩ := Option.map_eq_some_iff.1 h
      exact ⟨Dict.ordered_ofList ps, orderedMembers_ofList (ih ps hps)⟩
    · cases h
  case noItems =>
    intro vs h
    cases h
    simp
  case item =>
    intro d ds hd hds vs h
    simp only [itemValues?, Option.bind_eq_bind, Option.bind_eq_some_iff] at h
    obtain ⟨v, hv, vs', hvs', heq⟩ := h
    cases heq
    intro w hw
    rcases List.mem_cons.1 hw with rfl | hrest
    · exact hd w hv
    · exact hds vs' hvs' w hrest
  case noMembers =>
    intro ps h
    cases h
    simp
  case member =>
    intro m ms hm hms ps h
    obtain ⟨k, d⟩ := m
    simp only [memberValues?, Option.bind_eq_bind, Option.bind_eq_some_iff] at h
    obtain ⟨k', _, v, hv, ps', hps', heq⟩ := h
    cases heq
    intro p hp
    rcases List.mem_cons.1 hp with rfl | hrest
    · exact hm v hv
    · exact hms ps' hps' p hrest
  case pair => exact fun k d hd => hd

/-! ### Fields of records -/

theorem exists_of_mem_mapM {α : Type} {item? : Document → Option α} {ds : List Document}
    {as : List α} (h : ds.mapM item? = some as) : ∀ a ∈ as, ∃ d, item? d = some a := by
  induction ds generalizing as with
  | nil =>
    cases h
    simp
  | cons d ds ih =>
    rw [List.mapM_cons] at h
    simp only [Option.bind_eq_bind, Option.bind_eq_some_iff] at h
    obtain ⟨a, ha, as', has', heq⟩ := h
    cases heq
    intro b hb
    rcases List.mem_cons.1 hb with rfl | hrest
    · exact ⟨d, ha⟩
    · exact ih has' b hrest

/-- A field that is given has been read. -/
theorem exists_of_field {α : Type} {item? : Document → Option α} {known : Dict Document}
    {name : String} {a : α} (h : optional? known name none (nullable? item?) = some (some a)) :
    ∃ d, item? d = some a := by
  unfold optional? at h
  split at h
  · cases h
  · unfold nullable? at h
    split at h
    · cases h
    · obtain ⟨b, hb, heq⟩ := Option.map_eq_some_iff.1 h
      cases heq
      exact ⟨_, hb⟩

theorem exists_of_mem_field {α : Type} {item? : Document → Option α} {known : Dict Document}
    {name : String} {as : List α}
    (h : optional? known name none (nullable? (list? item?)) = some (some as)) :
    ∀ a ∈ as, ∃ d, item? d = some a := by
  obtain ⟨d, hd⟩ := exists_of_field h
  unfold list? at hd
  split at hd
  · split at hd
    · exact exists_of_mem_mapM hd
    · cases hd
  · cases hd

end Document
end Json

namespace Catalog

/-! ### Trees of requirements -/

inductive Node.Ordered : Node → Prop where
  | mk {n : Node} (plugins : ∀ vs, n.plugins = some vs → ∀ v ∈ vs, v.Ordered)
      (children : ∀ ns, n.children = some ns → ∀ c ∈ ns, c.Ordered) : n.Ordered

theorem Node.Ordered.of_mem_children {n : Node} (h : n.Ordered) {ns : List Node}
    (children : n.children = some ns) {c : Node} (mem : c ∈ ns) : c.Ordered := by
  cases h with
  | mk _ hchildren => exact hchildren ns children c mem

theorem Node.Ordered.of_mem_plugins {n : Node} (h : n.Ordered) {v : Value}
    (mem : v ∈ n.plugins.getD []) : v.Ordered := by
  cases h with
  | mk hplugins _ =>
    cases heq : n.plugins with
    | none => simp [heq] at mem
    | some vs =>
      rw [heq] at mem
      exact hplugins vs heq v mem

theorem Source.ordered_of_node? {levels : Nat} {d : Document} {n : Node}
    (h : node? levels d = some n) : n.Ordered := by
  induction levels generalizing d n with
  | zero => cases h
  | succ levels ih =>
    simp only [node?, Option.bind_eq_bind, Option.bind_eq_some_iff] at h
    obtain ⟨_, _, _, _, _, _, _, _, children, hchildren, plugins, hplugins, heq⟩ := h
    cases heq
    constructor
    · intro vs hvs v hv
      cases hvs
      obtain ⟨e, he⟩ := Document.exists_of_mem_field hplugins v hv
      exact Document.ordered_of_value? e v he
    · intro ns hns c hc
      cases hns
      obtain ⟨e, he⟩ := Document.exists_of_mem_field hchildren c hc
      exact ih he

theorem ordered_of_parse {text : String} {s : Source} (h : Source.parse text = .ok s) {root : Node}
    (hroot : s.root = some root) : root.Ordered := by
  unfold Source.parse at h
  split at h
  · next source hsource =>
    cases h
    obtain ⟨d, _, hd⟩ := Option.bind_eq_some_iff.1 hsource
    simp only [Source.ofDocument?, Option.bind_eq_bind, Option.bind_eq_some_iff] at hd
    obtain ⟨known, _, templates, _, found, hfound, heq⟩ := hd
    cases heq
    obtain ⟨e, he⟩ := Document.exists_of_field (hfound.trans (congrArg some hroot))
    exact Source.ordered_of_node? he
  · cases h

end Catalog
end TaskGen
