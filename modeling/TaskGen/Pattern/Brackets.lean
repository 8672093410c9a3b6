import TaskGen.Pattern.Escape

/-!
Classes of characters in brackets.
-/

namespace TaskGen
namespace Pattern

inductive SetOp where
  | inter
  | diff
  | symmDiff

def SetOp.apply : SetOp → CharSet → CharSet → CharSet
  | .inter, a, b => .inter a b
  | .diff, a, b => a.diff b
  | .symmDiff, a, b => a.symmDiff b

/-- A part of a class, with the levels of nesting in it. -/
structure ClassPart where
  set : CharSet
  levels : Nat

/-- Items that stand next to each other. -/
structure ClassItems where
  set : CharSet := .empty
  count : Nat := 0
  /-- The levels of nesting in the deepest item. -/
  levels : Nat := 0

def ClassItems.add (items : ClassItems) (s : CharSet) (levels : Nat) : ClassItems :=
  ⟨.union items.set s, items.count + 1, max items.levels levels⟩

/-- Several items are one level above each of them. -/
def ClassItems.toPart (items : ClassItems) : ClassPart :=
  ⟨items.set, if items.count < 2 then items.levels else items.levels + 1⟩

/-- A character that may stand in brackets.  Without the Unicode mode there are only the
ASCII ones. -/
def Primitive.classChar? (m : Mode) : Primitive → Option Char
  | .char c => if m.unicode ∨ c.toNat < 128 then some c else none
  | _ => none

/-- The next character, as far as a range looks ahead: it sees what stands in a comment. -/
def Mode.peek (m : Mode) (s : List Char) : Option Char :=
  if m.verbose then
    match s.dropWhile Text.isBlank with
    | '#' :: rest => (rest.dropWhile Text.isBlank).head?
    | s => s.head?
  else s.head?

/-- Hyphens in front, and a closing bracket that comes first, stand for themselves. -/
def readClassFront (m : Mode) : Nat → ClassItems → List Char → Option (ClassItems × List Char)
  | 0, _, _ => none
  | fuel + 1, items, s =>
    match s with
    | [] => none
    | '-' :: rest => readClassFront m fuel (items.add (.char '-') 0) (m.skip rest)
    | ']' :: rest =>
      if items.count = 0 then
        match m.skip rest with
        | [] => none
        | rest => some (items.add (.char ']') 0, rest)
      else some (items, ']' :: rest)
    | s => some (items, s)

/-- The opening of a class behind its bracket: whether it is negated, and its first items. -/
def readClassOpen (m : Mode) (s : List Char) : Option (Bool × ClassItems × List Char) := do
  let s := m.skip s
  let (negated, s) :=
    match s with
    | '^' :: rest => (true, m.skip rest)
    | s => (false, s)
  let (items, rest) ← readClassFront m (s.length + 1) {} s
  some (negated, items, rest)

section
variable (E : Engine)

/-- Operations are done from left to right.  Case is disregarded on both sides first. -/
def applyPending (m : Mode) : Option (SetOp × ClassPart) → ClassPart → ClassPart
  | none, part => part
  | some (op, left), part =>
    ⟨op.apply (m.fold E left.set) (m.fold E part.set), max left.levels part.levels + 1⟩

def readClassItem (m : Mode) : List Char → Option (Primitive × List Char)
  | [] => none
  | '\\' :: rest => readEscape E m rest
  | c :: rest => some (.char c, rest)

/-- A single item or a range.  A hyphen in front of a closing bracket or of another
hyphen makes no range. -/
def readClassRange (m : Mode) (s : List Char) : Option (CharSet × List Char) := do
  let (first, rest) ← readClassItem E m s
  let single : Option CharSet :=
    match first with
    | .set s => some s
    | p => (p.classChar? m).map .char
  match m.skip rest with
  | [] => none
  | '-' :: after =>
    if m.peek after = some ']' ∨ m.peek after = some '-' then some (← single, '-' :: after)
    else
      match m.skip after with
      | [] => none
      | after => do
        let low ← first.classChar? m
        let (second, rest) ← readClassItem E m after
        let high ← second.classChar? m
        if low ≤ high then some (.range low high, rest) else none
  | rest => some (← single, rest)

/-- What a name stands for may need the Unicode mode. -/
def Mode.named? (m : Mode) (negated : Bool) (name : List Char) : Option (Option CharSet) :=
  (CharSet.named? (String.ofList name)).map fun s => m.negate? negated (m.fold E s)

/-- A named class: everything between a bracket with a colon and a colon with a bracket. -/
def readNamedClass (m : Mode) (s : List Char) : Option (Option CharSet × List Char) :=
  match s with
  | ':' :: rest =>
    let (negated, rest) :=
      match rest with
      | '^' :: rest => (true, rest)
      | rest => (false, rest)
    let name := rest.takeWhile (· != ':')
    match rest.dropWhile (· != ':') with
    | ':' :: ']' :: rest => (m.named? E negated name).map fun s => (s, rest)
    | _ => none
  | _ => none

/-- A class by what its brackets enclose. -/
def bracketed? (m : Mode) (negated : Bool) (inner : ClassPart) : Option ClassPart :=
  (m.negate? negated (m.fold E inner.set)).map fun s => ⟨s, inner.levels + 1⟩

def readClassItems (m : Mode) :
    Nat → Option (SetOp × ClassPart) → ClassItems → List Char → Option (ClassPart × List Char)
  | 0, _, _, _ => none
  | fuel + 1, pending, items, s =>
    let operate := fun (op : SetOp) (rest : List Char) =>
      readClassItems m fuel (some (op, applyPending E m pending items.toPart)) {} rest
    let readOther := fun (s : List Char) => do
      let (item, rest) ← readClassRange E m s
      readClassItems m fuel pending (items.add item 0) rest
    match m.skip s with
    | [] => none
    | ']' :: rest => some (applyPending E m pending items.toPart, rest)
    | '&' :: '&' :: rest => operate .inter rest
    | '-' :: '-' :: rest => operate .diff rest
    | '~' :: '~' :: rest => operate .symmDiff rest
    | '[' :: rest =>
      match readNamedClass E m rest with
      | some (s, rest) => do readClassItems m fuel pending (items.add (← s) 0) rest
      | none => do
        let (negated, front, rest) ← readClassOpen m rest
        let (inner, rest) ← readClassItems m fuel none front rest
        let part ← bracketed? E m negated inner
        readClassItems m fuel pending (items.add part.set part.levels) rest
    | s => readOther s

def readClass (m : Mode) (s : List Char) : Option (ClassPart × List Char) := do
  let (negated, front, rest) ← readClassOpen m s
  let (inner, rest) ← readClassItems E m (rest.length + 1) none front rest
  some (← bracketed? E m negated inner, rest)

end
end Pattern
end TaskGen
