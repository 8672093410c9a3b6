import TaskGen.Dict

namespace TaskGen
namespace Json

/-- Whole numbers from `-2 ^ 63` to `2 ^ 64 - 1` are kept exactly.  All others are
doubles.  A double is never equal to a whole number, so `1` and `1.0` differ. -/
inductive Number where
  | int (n : Int)
  | float (x : Float)

/-- A JSON value.  The members of an object are in the order of their names. -/
inductive Value where
  | null
  | bool (b : Bool)
  | number (n : Number)
  | string (s : String)
  | array (items : List Value)
  | object (members : List (String × Value))

instance : Inhabited Value := ⟨.null⟩

/-- Doubles compare as numbers: the two zeros are equal. -/
def Number.same : Number → Number → Bool
  | .int a, .int b => a == b
  | .float a, .float b => a == b
  | _, _ => false

mutual
/-- Equality of values, with numbers compared by `Number.same`. -/
def Value.same : Value → Value → Bool
  | .null, .null => true
  | .bool a, .bool b => a == b
  | .number a, .number b => a.same b
  | .string a, .string b => a == b
  | .array a, .array b => sameItems a b
  | .object a, .object b => sameMembers a b
  | _, _ => false

def sameItems : List Value → List Value → Bool
  | [], [] => true
  | a :: as, b :: bs => a.same b && sameItems as bs
  | _, _ => false

def sameMembers : List (String × Value) → List (String × Value) → Bool
  | [], [] => true
  | (k, a) :: as, (l, b) :: bs => k == l && a.same b && sameMembers as bs
  | _, _ => false
end

instance : BEq Value := ⟨Value.same⟩

mutual
/-- Every object in the value has its names in strictly increasing order.  Reading and
merging only produce such values. -/
def Value.Ordered : Value → Prop
  | .array items => OrderedItems items
  | .object members => Dict.Ordered members ∧ OrderedMembers members
  | _ => True

def OrderedItems : List Value → Prop
  | [] => True
  | v :: rest => v.Ordered ∧ OrderedItems rest

def OrderedMembers : List (String × Value) → Prop
  | [] => True
  | (_, v) :: rest => v.Ordered ∧ OrderedMembers rest
end

namespace Value

def nat (n : Nat) : Value := .number (.int n)

def strings (items : List String) : Value := .array (items.map .string)

/-- An object from pairs in any order. -/
def ofPairs (pairs : List (String × Value)) : Value := .object (Dict.ofList pairs)

def optional {α : Type} (encode : α → Value) : Option α → Value
  | none => .null
  | some a => encode a

def string? : Value → Option String
  | .string s => some s
  | _ => none

end Value

end Json
end TaskGen
