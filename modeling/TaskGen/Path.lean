namespace TaskGen

/-- A path as it is written.  Parts are separated by slashes. -/
structure Path where
  text : String
  deriving DecidableEq, Repr

namespace Path

def splitSlashes : List Char → List (List Char)
  | [] => [[]]
  | c :: rest =>
    if c = '/' then [] :: splitSlashes rest
    else
      match splitSlashes rest with
      | [] => [[c]]
      | part :: more => (c :: part) :: more

theorem splitSlashes_ne_nil (s : List Char) : splitSlashes s ≠ [] := by
  cases s with
  | nil => simp [splitSlashes]
  | cons c rest =>
    unfold splitSlashes
    split
    · simp
    · split <;> simp

/-- What stands between the slashes, empty parts included. -/
def parts (p : Path) : List String := (splitSlashes p.text.toList).map String.ofList

def isAbsolute (p : Path) : Bool := p.text.toList.head? == some '/'

/-- `q` as seen from `p`.  An absolute path is the same from everywhere. -/
def join (p : Path) (q : String) : Path :=
  if (Path.mk q).isAbsolute then ⟨q⟩
  else if p.text.isEmpty || p.text.toList.getLast? == some '/' then ⟨p.text ++ q⟩
  else ⟨p.text ++ "/" ++ q⟩

/-- The path without the parts that do not matter.  A dot in front is kept, because it
makes a path that starts from the current directory different from a bare name. -/
def steps (p : Path) : List String :=
  let front :=
    if p.isAbsolute then ["/"]
    else if p.parts.head? == some "." then ["."]
    else []
  front ++ p.parts.filter fun part => part ≠ "" ∧ part ≠ "."

/-- The two paths have the same steps. -/
def same (p q : Path) : Bool := p.steps == q.steps

end Path
end TaskGen
