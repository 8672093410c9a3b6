import TaskGen.Pattern.Expr
import TaskGen.Text.Alphabetic
import TaskGen.Text.Blank
import TaskGen.Text.CaseFold

namespace TaskGen
namespace Pattern

/-- What is not in the syntax of patterns: the tables of Unicode, which grow with its versions, and
the bounds of the compiler. -/
structure Engine where
  decimal : Char → Bool
  word : Char → Bool
  /-- The name of a group begins with an alphabetic character or an underscore. -/
  alphabetic : Char → Bool
  numeric : Char → Bool
  /-- The characters that differ from the given one in case only, and the character itself. -/
  variants : Char → List Char
  /-- The characters that have the property with this name, or this value of it. -/
  property? : String → Option String → Option (Char → Bool)
  /-- The compiler takes the text, which is read as the expression. -/
  admits : List Char → Expr → Bool

namespace Engine

/-- The bytes of a state in the compiler's memory. -/
def stateSize : Nat := 32

/-- The compiler's memory in bytes. -/
def memory : Nat := 10 * 1024 * 1024

/-- Case, a leading "is", blanks, hyphens and underscores have no meaning in a name. -/
def plainName (name : String) : String :=
  let name := name.toList.map Char.toLower
  let name := if "is".toList.isPrefixOf name then name.drop 2 else name
  String.ofList (name.filter fun c => c.toNat < 128 && c != ' ' && c != '-' && c != '_')

/-- The categories that the tables here are enough for. -/
def category? : String → Option (Char → Bool)
  | "any" => some fun _ => true
  | "ascii" => some fun c => c.toNat < 128
  | "letter" | "l" => some Text.isLetter
  | "number" | "n" => some Text.isNumeric
  | "decimalnumber" | "digit" | "nd" => some Text.isDecimal
  | _ => none

def standardProperty? (name : String) : Option String → Option (Char → Bool)
  | some value =>
    match plainName name with
    | "generalcategory" | "gc" => category? (plainName value)
    | _ => none
  | none =>
    match plainName name with
    | "alphabetic" | "alpha" => some Text.isAlphabetic
    | "whitespace" | "wspace" | "space" => some Text.isBlank
    | category => category? category

/-- Unicode 15, without most of its properties.  Only those expressions are refused for their size
that are too large by the least number of states. -/
def standard : Engine where
  decimal := Text.isDecimal
  word := Text.isWordChar
  alphabetic := Text.isAlphabetic
  numeric := Text.isNumeric
  variants := Text.caseVariants
  property? := standardProperty?
  admits _ e := e.states * stateSize ≤ memory

end Engine
end Pattern
end TaskGen
