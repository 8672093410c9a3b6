import TaskGen.Catalog.Stack
import TaskGen.Proofs.Catalog.Loading

/-!
The walk over a tree of requirements as a recursion over the tree.  What is found at a node and
below it is the same, whatever else waits to be visited, so the walk reads the nodes one after the
other in the order of the text.

Main statements: `flatten_eq_gatherTree`, `flattenStack_eq_flatten`, `gatherTree_eq_foldlM`.
-/

namespace TaskGen
namespace Catalog

/-! ### Recursion over a tree -/

mutual
def Node.gather (templates : Templates) (path : String) (inherited : Option String)
    (leaves : Dict Leaf) : Node → Except Error (Dict Leaf)
  | .mk none _ _ _ => .error (.malformedTree (.noIdentifier path))
  | .mk (some own) template none plugins => do
    let id := joinIdentifier path own
    checkTemplate templates template id
    match template.or inherited with
    | none => .error (.noTemplate id)
    | some t =>
      if Dict.contains leaves id then .error (.malformedTree (.repeated id))
      else .ok (Dict.insert leaves id ⟨t, plugins.getD []⟩)
  | .mk (some own) template (some children) plugins => do
    let id := joinIdentifier path own
    checkTemplate templates template id
    if plugins.isSome then .error (.malformedTree (.childrenAndPlugins id))
    else gatherAll templates id (template.or inherited) leaves children

def gatherAll (templates : Templates) (path : String) (inherited : Option String)
    (leaves : Dict Leaf) : List Node → Except Error (Dict Leaf)
  | [] => .ok leaves
  | n :: rest => do
    let leaves ← n.gather templates path inherited leaves
    gatherAll templates path inherited leaves rest
end

def gatherTree (templates : Templates) (root : Node) : Except Error (Dict Leaf) := do
  checkTemplate templates root.template "requirement specifications"
  match root.children with
  | none => .error (.malformedTree .noRequirements)
  | some children => gatherAll templates "" root.template [] children

mutual
theorem walk_gather (templates : Templates) (path : String) (inherited : Option String)
    (rest : List Visit) (leaves : Dict Leaf) (n : Node) :
    walk templates leaves (⟨path, inherited, n⟩ :: rest) =
      n.gather templates path inherited leaves >>= fun leaves => walk templates leaves rest := by
  obtain ⟨identifier, template, children, plugins⟩ := n
  rw [walk]
  cases identifier with
  | none => rfl
  | some own =>
    dsimp only [Node.identifier, Node.template]
    cases hcheck : checkTemplate templates template (joinIdentifier path own) with
    | error e => cases children <;> simp [Node.gather, hcheck, bind, Except.bind]
    | ok u =>
      cases children with
      | none =>
        dsimp only [Node.children, Node.plugins]
        rw [Node.gather]
        rw [hcheck]
        cases template.or inherited with
        | none => rfl
        | some t =>
          show (if _ then _ else _) = (if _ then _ else _) >>= _
          split
          · rfl
          · rfl
      | some children =>
        dsimp only [Node.children, Node.plugins]
        rw [Node.gather, hcheck]
        cases plugins with
        | none => exact walk_gatherAll templates _ _ rest leaves children
        | some overrides => rfl

theorem walk_gatherAll (templates : Templates) (path : String) (inherited : Option String)
    (rest : List Visit) (leaves : Dict Leaf) (nodes : List Node) :
    walk templates leaves (visits path inherited nodes ++ rest) =
      gatherAll templates path inherited leaves nodes >>=
        fun leaves => walk templates leaves rest := by
  cases nodes with
  | nil => rfl
  | cons n nodes =>
    show walk templates leaves (⟨path, inherited, n⟩ :: (visits path inherited nodes ++ rest)) = _
    rw [walk_gather templates path inherited _ leaves n, gatherAll, bind_assoc]
    congr 1
    funext leaves
    exact walk_gatherAll templates path inherited rest leaves nodes
end

theorem flatten_eq_gatherTree (templates : Templates) (root : Node) :
    flatten templates root = gatherTree templates root := by
  unfold flatten gatherTree
  congr 1
  funext _
  cases root.children with
  | none => rfl
  | some children =>
    have hwalk := walk_gatherAll templates "" root.template [] [] children
    rw [List.append_nil] at hwalk
    dsimp only
    rw [hwalk]
    cases gatherAll templates "" root.template [] children with
    | error e => rfl
    | ok leaves => exact walk.eq_1 templates leaves

/-! ### Stacks -/

theorem drain_eq_walk (templates : Templates) (leaves : Dict Leaf) (stack : Array Visit) :
    drain templates leaves stack = walk templates leaves stack.toList.reverse := by
  fun_induction drain templates leaves stack with
  | case1 leaves stack hempty =>
    have hnil : stack = #[] := by simpa using hempty
    rw [hnil, List.reverse_nil, walk]
  | case2 leaves stack path inherited node htop hid =>
    rw [reverse_of_back? htop, walk, hid]
  | case3 leaves stack path inherited node htop own hid id e hcheck =>
    rw [reverse_of_back? htop, walk, hid]
    simp only [id] at hcheck
    simp only [hcheck]
  | case4 leaves stack path inherited node htop own hid id hcheck children hchildren hplugins =>
    obtain ⟨_, _, _, _⟩ := node
    cases hid
    cases hchildren
    rw [reverse_of_back? htop, walk]
    simp only [Node.template, Node.plugins, id] at hcheck hplugins ⊢
    simp only [Node.identifier, Node.children, hcheck, hplugins, if_true]
  | case5 leaves stack path inherited node htop own hid id hcheck template children hchildren
      hplugins ih =>
    obtain ⟨_, _, _, _⟩ := node
    cases hid
    cases hchildren
    rw [ih, reverse_of_back? htop, walk, toList_pushChildren, List.reverse_append,
      List.reverse_reverse]
    simp only [Node.template, Node.plugins, id, template] at hcheck hplugins ⊢
    simp only [Node.identifier, Node.children, hcheck, hplugins]
    rfl
  | case6 leaves stack path inherited node htop own hid id hcheck template hchildren htemplate =>
    obtain ⟨_, _, _, _⟩ := node
    cases hid
    cases hchildren
    rw [reverse_of_back? htop, walk]
    simp only [Node.template, id, template] at hcheck htemplate ⊢
    simp only [Node.identifier, Node.children, hcheck, htemplate]
  | case7 leaves stack path inherited node htop own hid id hcheck template hchildren t htemplate
      hknown =>
    obtain ⟨_, _, _, _⟩ := node
    cases hid
    cases hchildren
    rw [reverse_of_back? htop, walk]
    simp only [Node.template, id, template] at hcheck htemplate hknown ⊢
    simp only [Node.identifier, Node.children, hcheck, htemplate, hknown, if_true]
  | case8 leaves stack path inherited node htop own hid id hcheck template hchildren t htemplate
      hnew ih =>
    obtain ⟨_, _, _, _⟩ := node
    cases hid
    cases hchildren
    rw [ih, reverse_of_back? htop, walk]
    simp only [Node.template, Node.plugins, id, template] at hcheck htemplate hnew ⊢
    simp only [Node.identifier, Node.children, hcheck, htemplate, hnew]
    rfl

theorem flattenStack_eq_flatten (templates : Templates) (root : Node) :
    flattenStack templates root = flatten templates root := by
  unfold flattenStack flatten
  congr 1
  funext _
  cases root.children with
  | none => rfl
  | some children =>
    dsimp only
    rw [drain_eq_walk, toList_pushChildren, List.nil_append, List.reverse_reverse]

/-! ### Nodes in their places -/

/-- A node of a tree with the nodes above it, the topmost first.  The root of the tree stands for
no identifier, so it is not among them. -/
structure Occurrence where
  above : List Node
  node : Node

mutual
def Node.preorder (above : List Node) : Node → List Occurrence
  | .mk identifier template none plugins => [⟨above, .mk identifier template none plugins⟩]
  | .mk identifier template (some children) plugins =>
    ⟨above, .mk identifier template (some children) plugins⟩ ::
      preorderAll (above ++ [.mk identifier template (some children) plugins]) children

def preorderAll (above : List Node) : List Node → List Occurrence
  | [] => []
  | n :: rest => n.preorder above ++ preorderAll above rest
end

def joined (nodes : List Node) : String := (nodes.filterMap Node.identifier).foldl joinIdentifier ""

/-- The template of the lowest node that names one, or else that of the root. -/
def nearest? (base : Option String) (nodes : List Node) : Option String :=
  (nodes.reverse.findSome? Node.template).or base

theorem joined_concat {above : List Node} {n : Node} {own : String} (h : n.identifier = some own) :
    joined (above ++ [n]) = joinIdentifier (joined above) own := by
  simp [joined, h]

theorem nearest?_concat (base : Option String) (above : List Node) (n : Node) :
    nearest? base (above ++ [n]) = n.template.or (nearest? base above) := by
  unfold nearest?
  rw [List.reverse_concat, List.findSome?_cons]
  cases n.template with
  | none => rfl
  | some t => rfl

namespace Occurrence

def way (o : Occurrence) : List Node := o.above ++ [o.node]

def id (o : Occurrence) : String := joined o.way

def template? (base : Option String) (o : Occurrence) : Option String := nearest? base o.way

def isLeaf (o : Occurrence) : Bool := o.node.children.isNone

def read (templates : Templates) (base : Option String) (leaves : Dict Leaf) (o : Occurrence) :
    Except Error (Dict Leaf) :=
  match o.node.identifier with
  | none => .error (.malformedTree (.noIdentifier (joined o.above)))
  | some _ => do
    checkTemplate templates o.node.template o.id
    match o.node.children with
    | some _ =>
      if o.node.plugins.isSome then .error (.malformedTree (.childrenAndPlugins o.id))
      else .ok leaves
    | none =>
      match o.template? base with
      | none => .error (.noTemplate o.id)
      | some t =>
        if Dict.contains leaves o.id then .error (.malformedTree (.repeated o.id))
        else .ok (Dict.insert leaves o.id ⟨t, o.node.plugins.getD []⟩)

end Occurrence

section
variable (templates : Templates) (base : Option String)

mutual
theorem gather_eq_foldlM (above : List Node) (leaves : Dict Leaf) (n : Node) :
    n.gather templates (joined above) (nearest? base above) leaves =
      (n.preorder above).foldlM (Occurrence.read templates base) leaves := by
  obtain ⟨identifier, template, children, plugins⟩ := n
  cases identifier with
  | none => cases children <;> rfl
  | some own =>
    have hid : ∀ children, joined (above ++ [.mk (some own) template children plugins]) =
        joinIdentifier (joined above) own := fun children => joined_concat rfl
    have htemplate : ∀ children,
        nearest? base (above ++ [.mk (some own) template children plugins]) =
          template.or (nearest? base above) := fun children => nearest?_concat base above _
    cases children with
    | none =>
      rw [Node.preorder, List.foldlM_cons, Node.gather]
      simp only [Occurrence.read, Occurrence.id, Occurrence.template?, Occurrence.way,
        Node.identifier, Node.template, Node.children, Node.plugins, hid, htemplate,
        List.foldlM_nil]
      exact (bind_pure _).symm
    | some children =>
      have hbelow := gatherAll_eq_foldlM
        (above ++ [.mk (some own) template (some children) plugins]) leaves children
      rw [hid, htemplate] at hbelow
      rw [Node.preorder, List.foldlM_cons, Node.gather]
      simp only [Occurrence.read, Occurrence.id, Occurrence.way,
        Node.identifier, Node.template, Node.children, Node.plugins, hid]
      cases checkTemplate templates template (joinIdentifier (joined above) own) with
      | error e => rfl
      | ok u =>
        cases plugins with
        | none => exact hbelow
        | some overrides => rfl

theorem gatherAll_eq_foldlM (above : List Node) (leaves : Dict Leaf) (nodes : List Node) :
    gatherAll templates (joined above) (nearest? base above) leaves nodes =
      (preorderAll above nodes).foldlM (Occurrence.read templates base) leaves := by
  cases nodes with
  | nil => rfl
  | cons n nodes =>
    rw [gatherAll, preorderAll, List.foldlM_append, gather_eq_foldlM above leaves n]
    congr 1
    funext leaves
    exact gatherAll_eq_foldlM above leaves nodes
end

end

def Node.occurrences (root : Node) : List Occurrence := preorderAll [] (root.children.getD [])

theorem gatherTree_eq_foldlM {templates : Templates} {root : Node}
    (described : checkTemplate templates root.template "requirement specifications" = .ok ())
    (inner : root.children.isSome = true) : gatherTree templates root =
      root.occurrences.foldlM (Occurrence.read templates root.template) [] := by
  obtain ⟨children, hchildren⟩ := Option.isSome_iff_exists.1 inner
  rw [gatherTree, described, Node.occurrences, hchildren]
  exact gatherAll_eq_foldlM templates root.template [] [] children

end Catalog
end TaskGen
