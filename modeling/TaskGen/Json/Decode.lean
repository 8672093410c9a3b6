import TaskGen.Json.Document

namespace TaskGen
namespace Json
namespace Document

/-!
Reading typed data out of a document.  A record is an object, or an array with the
values of its fields in their order.  Members that are no field are skipped unread.  A
field that occurs twice is refused.
-/

def string? : Document → Option String
  | .string s => s
  | _ => none

def bool? : Document → Option Bool
  | .bool b => some b
  | _ => none

/-- A whole number of at most `max`, spelled without fraction and exponent. -/
def nat? (max : Nat) : Document → Option Nat
  | .number (some (.int n)) => if 0 ≤ n ∧ n ≤ max then some n.toNat else none
  | _ => none

/-- Any number, whole numbers rounded to the nearest double. -/
def float? : Document → Option Float
  | .number (some (.int n)) => some (if n < 0 then -(Float.ofNat n.natAbs) else Float.ofNat n.natAbs)
  | .number (some (.float x)) => some x
  | _ => none

def list? {α : Type} (item? : Document → Option α) : Document → Option (List α)
  | .array level items => if level ≤ deepest then items.mapM item? else none
  | _ => none

/-- A free choice of names.  Of several members with one name the last counts, but all
have to be readable. -/
def dict? {α : Type} (item? : Document → Option α) : Document → Option (Dict α)
  | .object level members =>
    if level ≤ deepest then do
      let pairs ← members.mapM fun m => do some (← m.1, ← item? m.2)
      some (Dict.ofList pairs)
    else none
  | _ => none

def nullable? {α : Type} (item? : Document → Option α) : Document → Option (Option α)
  | .null => some none
  | d => (item? d).map some

/-- A name out of a closed list, spelled as a string or as an object that has the name
with a null. -/
def choice? : Document → Option String
  | .string s => s
  | .object level [(k, .null)] => if level ≤ deepest then k else none
  | _ => none

/-- The members that are fields, each at most once. -/
def collectFields (fields : List String) :
    List (Option String × Document) → Dict Document → Option (Dict Document)
  | [], known => some known
  | (none, _) :: _, _ => none
  | (some k, d) :: rest, known =>
    if fields.contains k then
      if Dict.contains known k then none else collectFields fields rest (Dict.insert known k d)
    else collectFields fields rest known

/-- The fields of a record that are given. -/
def record? (fields : List String) : Document → Option (Dict Document)
  | .array level items =>
    if level ≤ deepest ∧ (items.length ≤ fields.length ∨ level = 0) then
      some (Dict.ofList (fields.zip items))
    else none
  | .object level members =>
    if level ≤ deepest then collectFields fields members [] else none
  | _ => none

/-- The fields of a record that keeps what it does not know: the fields that are given,
and all other members as they are.  Such a record is always an object. -/
def openRecord? (fields : List String) : Document → Option (Dict Document × Dict Value)
  | .object level members => do
    if level ≤ deepest then
      let known ← collectFields fields members []
      let others ← memberValues? (members.filter fun m => !(m.1.any fields.contains))
      some (known, Dict.ofList others)
    else none
  | _ => none

end Document

/-- A field that has to be given. -/
def required? {α : Type} (known : Dict Document) (name : String)
    (item? : Document → Option α) : Option α := do
  item? (← Dict.find? known name)

/-- A field with a value for the case that it is not given. -/
def optional? {α : Type} (known : Dict Document) (name : String) (default : α)
    (item? : Document → Option α) : Option α :=
  match Dict.find? known name with
  | none => some default
  | some d => item? d

end Json
end TaskGen
