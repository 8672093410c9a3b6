import TaskGen.Dict
import TaskGen.Path
import TaskGen.Text.Blank
import TaskGen.Text.Line

/-!
The listing of the fragments is a text with a line for each one: its identifier, `:=`,
and the path of its description.
-/

namespace TaskGen

/-- The fragments to check, each with the path of its description. -/
abbrev FragmentSet := Dict Path

namespace Listing

/-- What is wrong with a line. -/
inductive Fault where
  | noSeparator (line : String)
  | emptyPart
  | repeated (fragment : String)

def Fault.message : Fault → String
  | .noSeparator line => "expected 'fragment:=path', got '" ++ line ++ "'"
  | .emptyPart => "empty fragment identifier or descriptor path"
  | .repeated fragment => "duplicate fragment '" ++ fragment ++ "'"

/-- The first line with a fault.  Lines are counted from 1, blank ones included. -/
structure Malformed where
  line : Nat
  fault : Fault

def Malformed.message (m : Malformed) : String :=
  "malformed fragment listing line " ++ toString m.line ++ ": " ++ m.fault.message

/-- What stands before the first separator, and what stands behind it. -/
def splitLine? : List Char → Option (List Char × List Char)
  | [] => none
  | ':' :: '=' :: rest => some ([], rest)
  | c :: rest => (splitLine? rest).map fun p => (c :: p.1, p.2)

/-- The identifier and the path on a line that is not blank. -/
def readLine (line : List Char) : Except Fault (String × String) :=
  match splitLine? line with
  | none => .error (.noSeparator (String.ofList line))
  | some (front, back) =>
    let id := Text.trim front
    let file := Text.trim back
    if id.isEmpty || file.isEmpty then .error .emptyPart
    else .ok (String.ofList id, String.ofList file)

/-- Read the lines from the given number on and add their fragments. -/
def readLines (base : Path) : Nat → List (List Char) → FragmentSet → Except Malformed FragmentSet
  | _, [], set => .ok set
  | number, raw :: rest, set =>
    let line := Text.trim raw
    if line.isEmpty then readLines base (number + 1) rest set
    else
      match readLine line with
      | .error fault => .error ⟨number, fault⟩
      | .ok (id, file) =>
        if Dict.contains set id then .error ⟨number, .repeated id⟩
        else readLines base (number + 1) rest (Dict.insert set id (base.join file))

/-- Read a listing.  The paths in it are seen from `base`. -/
def parse (text : String) (base : Path) : Except Malformed FragmentSet :=
  readLines base 1 (Text.lines text.toList) []

end Listing
end TaskGen
