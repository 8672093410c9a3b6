import TaskGen.Text.Blank

namespace TaskGen

/-- Reading from the front of a text.  There is no result if the text is not as wanted. -/
abbrev Scan := StateT (List Char) Option

namespace Scan

def run? {α : Type} (scan : Scan α) (text : String) : Option α := (scan.run text.toList).map (·.1)

def front : Scan (Option Char) := do return (← get).head?

def startsWith (s : String) : Scan Bool := do return s.toList.isPrefixOf (← get)

/-- The next character, if it is one of those that are wanted. -/
def one (wanted : Char → Bool) : Scan Char := do
  match ← get with
  | c :: rest => if wanted c then set rest; pure c else failure
  | [] => failure

def exactly (c : Char) : Scan Unit := do
  let _ ← one (· == c)

def skip (count : Nat) : Scan Unit := modify (·.drop count)

def skipWhile (wanted : Char → Bool) : Scan Unit := modify (·.dropWhile wanted)

def takeWhile (wanted : Char → Bool) : Scan (List Char) := do
  let s ← get
  set (s.dropWhile wanted)
  pure (s.takeWhile wanted)

def skipBlanks : Scan Unit := skipWhile Text.isBlank

/-- From one up to `most` decimal digits. -/
def digits (most : Nat) : Scan (List Char) := do
  let s ← get
  let ds := (s.takeWhile Char.isDigit).take most
  if ds.isEmpty then failure
  set (s.drop ds.length)
  pure ds

def valueOf (digits : List Char) : Nat := digits.foldl (fun n c => 10 * n + (c.toNat - 48)) 0

end Scan
end TaskGen
