import TaskGen.Catalog.Template

namespace TaskGen
namespace Catalog

/-- A requirement that is not combined with its template yet. -/
structure Leaf where
  template : String
  overrides : List Json.Value

mutual
/-- The number of nodes in a tree. -/
def Node.size : Node → Nat
  | .mk _ _ none _ => 1
  | .mk _ _ (some children) _ => sizeOfNodes children + 1

def sizeOfNodes : List Node → Nat
  | [] => 0
  | n :: rest => n.size + sizeOfNodes rest
end

theorem Node.size_pos (n : Node) : 0 < n.size := by
  obtain ⟨_, _, _ | _, _⟩ := n <;> simp [Node.size]

/-- A node that is still to be visited, with what it gets from the nodes above it. -/
structure Visit where
  path : String
  template : Option String
  node : Node

def visits (path : String) (template : Option String) (nodes : List Node) : List Visit :=
  nodes.map fun n => ⟨path, template, n⟩

def totalSize : List Visit → Nat
  | [] => 0
  | v :: rest => v.node.size + totalSize rest

theorem totalSize_visits (path : String) (template : Option String) (nodes : List Node) :
    totalSize (visits path template nodes) = sizeOfNodes nodes := by
  induction nodes with
  | nil => rfl
  | cons n rest ih => simpa [totalSize, visits, sizeOfNodes] using ih

theorem totalSize_append (a b : List Visit) : totalSize (a ++ b) = totalSize a + totalSize b := by
  induction a with
  | nil => simp [totalSize]
  | cons v rest ih => simp [totalSize, ih, Nat.add_assoc]

def checkTemplate (templates : Templates) (template : Option String) (referrer : String) :
    Except Error Unit :=
  match template with
  | some t => if Dict.contains templates t then .ok () else .error (.unknownTemplate t referrer)
  | none => .ok ()

/-- The identifiers on the way to a node, with colons between them. -/
def joinIdentifier (path own : String) : String :=
  if path.isEmpty then own else path ++ ":" ++ own

/-- Visit the nodes in the order of the text and collect the requirements. -/
def walk (templates : Templates) (leaves : Dict Leaf) : List Visit → Except Error (Dict Leaf)
  | [] => .ok leaves
  | ⟨path, inherited, node⟩ :: rest =>
    match node.identifier with
    | none => .error (.malformedTree (.noIdentifier path))
    | some own =>
      let id := joinIdentifier path own
      match checkTemplate templates node.template id with
      | .error e => .error e
      | .ok () =>
        let template := node.template.or inherited
        match _h : node.children with
        | some children =>
          if node.plugins.isSome then .error (.malformedTree (.childrenAndPlugins id))
          else walk templates leaves (visits id template children ++ rest)
        | none =>
          match template with
          | none => .error (.noTemplate id)
          | some t =>
            if Dict.contains leaves id then .error (.malformedTree (.repeated id))
            else walk templates (Dict.insert leaves id ⟨t, node.plugins.getD []⟩) rest
termination_by vs => totalSize vs
decreasing_by
  · obtain ⟨_, _, c, _⟩ := node
    cases _h
    rw [totalSize_append, totalSize_visits]
    simp [totalSize, Node.size]
  · have := node.size_pos
    simp [totalSize]
    omega

/-- All requirements of a catalog by their identifiers. -/
def flatten (templates : Templates) (root : Node) : Except Error (Dict Leaf) := do
  checkTemplate templates root.template "requirement specifications"
  match root.children with
  | none => .error (.malformedTree .noRequirements)
  | some children => walk templates [] (visits "" root.template children)

end Catalog
end TaskGen
