import TaskGen.Catalog.Tree

/-!
The nodes of a tree in the order of a stack, whose top is at the end.  The children of a node are
pushed from the last to the first, so the first one is on top.
-/

namespace TaskGen
namespace Catalog

def pushChildren (path : String) (template : Option String) (children : List Node)
    (stack : Array Visit) : Array Visit :=
  children.reverse.foldl (fun stack n => stack.push ⟨path, template, n⟩) stack

theorem toList_pushChildren (path : String) (template : Option String) (children : List Node)
    (stack : Array Visit) : (pushChildren path template children stack).toList =
      stack.toList ++ (visits path template children).reverse := by
  simp [pushChildren, visits]

theorem totalSize_reverse (vs : List Visit) : totalSize vs.reverse = totalSize vs := by
  induction vs with
  | nil => rfl
  | cons v rest ih =>
    rw [List.reverse_cons, totalSize_append, ih]
    simp [totalSize, Nat.add_comm]

theorem reverse_of_back? {stack : Array Visit} {v : Visit} (h : stack.back? = some v) :
    stack.toList.reverse = v :: stack.pop.toList.reverse := by
  rw [← Array.getLast?_toList, List.getLast?_eq_some_iff] at h
  obtain ⟨front, hfront⟩ := h
  rw [Array.toList_pop, hfront, List.dropLast_concat, List.reverse_concat]

theorem totalSize_of_back? {stack : Array Visit} {v : Visit} (h : stack.back? = some v) :
    totalSize stack.toList = v.node.size + totalSize stack.pop.toList := by
  rw [← totalSize_reverse, reverse_of_back? h, totalSize, totalSize_reverse]

/-- Take nodes from the stack until it is empty, and collect the requirements. -/
def drain (templates : Templates) (leaves : Dict Leaf) (stack : Array Visit) :
    Except Error (Dict Leaf) :=
  match _h : stack.back? with
  | none => .ok leaves
  | some ⟨path, inherited, node⟩ =>
    match node.identifier with
    | none => .error (.malformedTree (.noIdentifier path))
    | some own =>
      let id := joinIdentifier path own
      match checkTemplate templates node.template id with
      | .error e => .error e
      | .ok () =>
        let template := node.template.or inherited
        match _hc : node.children with
        | some children =>
          if node.plugins.isSome then .error (.malformedTree (.childrenAndPlugins id))
          else drain templates leaves (pushChildren id template children stack.pop)
        | none =>
          match template with
          | none => .error (.noTemplate id)
          | some t =>
            if Dict.contains leaves id then .error (.malformedTree (.repeated id))
            else drain templates (Dict.insert leaves id ⟨t, node.plugins.getD []⟩) stack.pop
termination_by totalSize stack.toList
decreasing_by
  · obtain ⟨_, _, c, _⟩ := node
    cases _hc
    rw [totalSize_of_back? _h, toList_pushChildren, totalSize_append, totalSize_reverse,
      totalSize_visits]
    simp [Node.size]
    omega
  · have := node.size_pos
    rw [totalSize_of_back? _h]
    simp
    omega

/-- All requirements of a catalog, by way of a stack. -/
def flattenStack (templates : Templates) (root : Node) : Except Error (Dict Leaf) := do
  checkTemplate templates root.template "requirement specifications"
  match root.children with
  | none => .error (.malformedTree .noRequirements)
  | some children => drain templates [] (pushChildren "" root.template children #[])

end Catalog
end TaskGen
