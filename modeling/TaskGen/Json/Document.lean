import TaskGen.Json.Value

namespace TaskGen
namespace Json

/-- What a text says before it is known what is wanted from it.  Members keep their
written order and repetitions.  Parts that have no meaning as a value are no error yet,
because a part that nobody asks for is skipped. -/
inductive Document where
  | null
  | bool (b : Bool)
  /-- Without a number: too large. -/
  | number (n : Option Number)
  /-- Without a string: half of a surrogate pair. -/
  | string (s : Option String)
  /-- `level` is 1 for the outermost brackets of the text.  Level 0 is for what was not
  written as JSON.  A record that is made from such an array takes its first items. -/
  | array (level : Nat) (items : List Document)
  | object (level : Nat) (members : List (Option String × Document))

/-- Containers below this level are refused. -/
def deepest : Nat := 127

namespace Document

mutual
/-- The value of a document.  Of several members with one name the last counts. -/
def value? : Document → Option Value
  | .null => some .null
  | .bool b => some (.bool b)
  | .number n => n.map .number
  | .string s => s.map .string
  | .array level items =>
    if level ≤ deepest then (itemValues? items).map .array else none
  | .object level members =>
    if level ≤ deepest then (memberValues? members).map fun ms => .object (Dict.ofList ms)
    else none

def itemValues? : List Document → Option (List Value)
  | [] => some []
  | d :: rest => do
    let v ← d.value?
    let vs ← itemValues? rest
    some (v :: vs)

def memberValues? : List (Option String × Document) → Option (List (String × Value))
  | [] => some []
  | (k, d) :: rest => do
    let k ← k
    let v ← d.value?
    let vs ← memberValues? rest
    some ((k, v) :: vs)
end

mutual
/-- A value as a document, for decoders of documents.  Nothing in it is too deep. -/
def ofValue : Value → Document
  | .null => .null
  | .bool b => .bool b
  | .number n => .number (some n)
  | .string s => .string (some s)
  | .array items => .array 1 (ofItems items)
  | .object members => .object 1 (ofMembers members)

def ofItems : List Value → List Document
  | [] => []
  | v :: rest => ofValue v :: ofItems rest

def ofMembers : List (String × Value) → List (Option String × Document)
  | [] => []
  | (k, v) :: rest => (some k, ofValue v) :: ofMembers rest
end

end Document
end Json
end TaskGen
