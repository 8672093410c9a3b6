import TaskGen.Json.Decode

namespace TaskGen

/-- The options of a stage. -/
abbrev Options := Dict Json.Value

namespace Options

mutual
/-- `overrides` over `base`.  Where both have an object under a name, the objects are
merged in turn.  In all other cases the override stands. -/
def merge (base : List (String × Json.Value)) :
    List (String × Json.Value) → List (String × Json.Value)
  | [] => base
  | (key, value) :: rest =>
    merge (Dict.insert base key (mergeValue (Dict.find? base key) value)) rest

def mergeValue : Option Json.Value → Json.Value → Json.Value
  | some (.object base), .object overrides => .object (merge base overrides)
  | _, value => value
end

def ofDocument? : Json.Document → Option Options := Json.Document.dict? Json.Document.value?

end Options
end TaskGen
