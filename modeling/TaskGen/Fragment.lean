import TaskGen.Json.Decode

namespace TaskGen

/-- A unit of compiled code: the descriptions of its compiler calls and its source files.
What else was said about it is kept. -/
structure CompilationGroup where
  id : String
  calls : List String
  files : List String
  others : Dict Json.Value

/-- The description of a program fragment.  Attributes that are not known here are kept,
so they reach the stages. -/
structure Fragment where
  id : String
  groups : List CompilationGroup
  /-- The groups that a group depends on. -/
  dependencies : Dict (List String)
  others : Dict Json.Value

namespace CompilationGroup

open Json Document

def ofDocument? (d : Document) : Option CompilationGroup := do
  let (known, others) ← d.openRecord? ["id", "CCs", "files"]
  some {
    id := ← required? known "id" string?
    calls := ← optional? known "CCs" [] (list? string?)
    files := ← optional? known "files" [] (list? string?)
    others }

def toJson (g : CompilationGroup) : Value :=
  .object (Dict.extend g.others
    [("CCs", .strings g.calls), ("files", .strings g.files), ("id", .string g.id)])

end CompilationGroup

namespace Fragment

open Json Document

/-- The files of all groups, sorted, each one once. -/
def files (f : Fragment) : List String :=
  Dict.keys (Dict.ofList ((f.groups.flatMap (·.files)).map fun file => (file, ())))

def ofDocument? (d : Document) : Option Fragment := do
  let (known, others) ← d.openRecord? ["id", "grps", "deps"]
  some {
    id := ← required? known "id" string?
    groups := ← optional? known "grps" [] (list? CompilationGroup.ofDocument?)
    dependencies := ← optional? known "deps" [] (dict? (list? string?))
    others }

def attributes (f : Fragment) : Dict Value :=
  Dict.extend f.others
    [("deps", .object (Dict.mapValues .strings f.dependencies)),
      ("grps", .array (f.groups.map (·.toJson))), ("id", .string f.id)]

def toJson (f : Fragment) : Value := .object f.attributes

end Fragment
end TaskGen
