import TaskGen.Catalog.Error
import TaskGen.Json.Reader
import TaskGen.Requirement

namespace TaskGen
namespace Catalog

/-- A template as it is written: its own stages, unread, and the template it derives
from. -/
structure TemplateSource where
  plugins : Option (List Json.Value)
  base : Option String

/-- A node of the tree of requirements.  A node with children stands for all of them and
gives them the front part of their identifiers and a template.  A node without children
is a requirement and may override options of its template. -/
inductive Node where
  | mk (identifier template : Option String) (children : Option (List Node))
    (plugins : Option (List Json.Value))

namespace Node

def identifier : Node → Option String
  | .mk id _ _ _ => id

def template : Node → Option String
  | .mk _ t _ _ => t

def children : Node → Option (List Node)
  | .mk _ _ c _ => c

def plugins : Node → Option (List Json.Value)
  | .mk _ _ _ p => p

end Node

/-- A catalog as it is written. -/
structure Source where
  templates : Option (Dict TemplateSource)
  root : Option Node

namespace Source

open Json Document

def text? (known : Dict Document) (name : String) : Option (Option String) :=
  optional? known name none (nullable? string?)

def plugins? (known : Dict Document) : Option (Option (List Value)) :=
  optional? known "plugins" none (nullable? (list? value?))

def template? (d : Document) : Option TemplateSource := do
  let known ← d.record? ["plugins", "template", "description"]
  let plugins ← plugins? known
  let base ← text? known "template"
  let _ ← text? known "description"
  some ⟨plugins, base⟩

/-- `levels` bounds the nesting.  Texts are refused below their own limit, and every node
takes two levels of the text, so that limit is enough. -/
def node? : Nat → Document → Option Node
  | 0, _ => none
  | levels + 1, d => do
    let known ← d.record? ["identifier", "template", "description", "children", "plugins"]
    let identifier ← text? known "identifier"
    let template ← text? known "template"
    let _ ← text? known "description"
    let children ← optional? known "children" none (nullable? (list? (node? levels)))
    let plugins ← plugins? known
    some (.mk identifier template children plugins)

def ofDocument? (d : Document) : Option Source := do
  let known ← d.record? ["templates", "requirement specifications"]
  let templates ← optional? known "templates" none (nullable? (dict? template?))
  let root ←
    optional? known "requirement specifications" none (nullable? (node? (deepest + 1)))
  some ⟨templates, root⟩

def parse (text : String) : Except Error Source :=
  match (Document.ofString? text).bind ofDocument? with
  | some s => .ok s
  | none => .error .json

end Source

/-- Read the description of a plugin.  `owner` and `index` tell where it stands. -/
def readPlugin (owner : String) (index : Nat) (optionsRequired : Bool) (v : Json.Value) :
    Except Error (Stage × Options) := do
  let invalid := fun fault => Except.error (Error.invalidPlugin owner index fault)
  match v with
  | .object members =>
    match (Dict.find? members "name").bind Json.Value.string? with
    | none => invalid .noName
    | some name =>
      match Stage.ofName name with
      | .error _ => .error (.unknownPlugin owner name)
      | .ok stage =>
        match Dict.find? members "options" with
        | some (.object options) => .ok (stage, options)
        | some _ => invalid .optionsNotAnObject
        | none => if optionsRequired then invalid .noOptions else .ok (stage, [])
  | _ => invalid .notAnObject

end Catalog
end TaskGen
