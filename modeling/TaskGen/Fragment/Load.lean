import TaskGen.FileTree
import TaskGen.Fragment
import TaskGen.Fragment.Listing
import TaskGen.Json.Reader

namespace TaskGen

/-- Why the description of a fragment is not available. -/
inductive DescriptorError where
  /-- The file cannot be read, or it is not a text. -/
  | io
  | json
  | unknownFragment (fragment : String)

def DescriptorError.message : DescriptorError → String
  | .io => "IO error"
  | .json => "JSON error"
  | .unknownFragment fragment => "fragment not found: " ++ fragment

namespace Fragment

def ofString? (text : String) : Option Fragment := do
  ofDocument? (← Json.Document.ofString? text)

/-- Read a description from its file. -/
def load (files : FileTree) (p : Path) : Except DescriptorError Fragment :=
  match files.readText p with
  | .error _ => .error .io
  | .ok text =>
    match ofString? text with
    | none => .error .json
    | some f => .ok f

end Fragment

/-- The description of one of the fragments. -/
def FragmentSet.describe (set : FragmentSet) (files : FileTree) (fragment : String) :
    Except DescriptorError Fragment :=
  match Dict.find? set fragment with
  | none => .error (.unknownFragment fragment)
  | some p => Fragment.load files p

end TaskGen
