import TaskGen.FileTree

/-!
Small programs, as far as stages are made of them.  What they say about their failures is
not kept.
-/

namespace TaskGen
namespace Rehearsal

/-- What a program leaves behind: its exit code, what it printed, and the files. -/
structure Left where
  code : Nat
  out : ByteArray
  files : FileTree

/-- A program with arguments, an input and files. -/
abbrev Tool : Type := List String → ByteArray → FileTree → Left

namespace Left

def quiet (code : Nat) (files : FileTree) : Left := ⟨code, .empty, files⟩

def print (text : String) (files : FileTree) : Left := ⟨0, text.toUTF8, files⟩

/-- Changed files, or the old ones and a failure. -/
def ofChange (files : FileTree) : Except FileError FileTree → Left
  | .ok changed => quiet 0 changed
  | .error _ => quiet 1 files

/-- Go on with another file after the files so far.  One failure is enough to fail. -/
def followedBy (l : Left) (next : FileTree → Left) : Left :=
  let n := next l.files
  ⟨max l.code n.code, l.out ++ n.out, n.files⟩

end Left

/-- Do the same with every argument. -/
def forEach (each : String → FileTree → Left) (args : List String) (files : FileTree) : Left :=
  args.foldl (fun l arg => l.followedBy (each arg)) (.quiet 0 files)

/-- Options are one letter each.  A lone dash is an argument. -/
def isOption (arg : String) : Bool := arg.startsWith "-" && arg ≠ "-"

def letters (args : List String) : List Char :=
  ((args.takeWhile isOption).flatMap fun arg => arg.toList.drop 1)

def operands (args : List String) : List String := args.dropWhile isOption

/-! ### Names -/

/-- The last part of a path. -/
def lastPart (p : String) : String :=
  match ((Path.mk p).parts.filter (· ≠ "")).getLast? with
  | some part => part
  | none => if p.isEmpty then "" else "/"

/-- A path without its last part. -/
def frontPart (p : String) : String :=
  let parts := (Path.mk p).parts.filter (· ≠ "")
  let front := "/".intercalate parts.dropLast
  if (Path.mk p).isAbsolute then "/" ++ front else if front.isEmpty then "." else front

def place (files : FileTree) : String := "/" ++ "/".intercalate files.here

/-- Where a file goes: into a directory it goes under its own name. -/
def destination (files : FileTree) (source target : String) : Path :=
  match files.find ⟨target⟩ with
  | .ok .directory => (Path.mk target).join (lastPart source)
  | _ => ⟨target⟩

/-! ### Files -/

def cat (args : List String) (input : ByteArray) (files : FileTree) : Left :=
  let show1 := fun (arg : String) (files : FileTree) =>
    if arg = "-" then ⟨0, input, files⟩
    else
      match files.read ⟨arg⟩ with
      | .ok bytes => ⟨0, bytes, files⟩
      | .error _ => Left.quiet 1 files
  if (operands args).isEmpty then ⟨0, input, files⟩ else forEach show1 (operands args) files

/-- Copying a file onto itself is refused. -/
def copyTo (target : String) (source : String) (files : FileTree) : Left :=
  let goal := destination files source target
  match files.locate ⟨source⟩, files.locate goal with
  | .ok a, .ok b => if a = b then .quiet 1 files else .ofChange files (files.copy ⟨source⟩ goal)
  | _, _ => .quiet 1 files

def moveTo (target : String) (source : String) (files : FileTree) : Left :=
  let l := copyTo target source files
  if l.code = 0 then .ofChange files (l.files.removeFile ⟨source⟩) else l

def isDirectory (files : FileTree) (p : String) : Bool :=
  match files.find ⟨p⟩ with
  | .ok .directory => true
  | _ => false

/-- Several files go into a directory only. -/
def transfer (one : String → String → FileTree → Left) : Tool := fun args _ files =>
  match (operands args).reverse with
  | target :: source :: more =>
    if more.isEmpty || isDirectory files target then
      forEach (one target) (source :: more).reverse files
    else .quiet 1 files
  | _ => .quiet 1 files

def makeDirectory (parents : Bool) (p : String) (files : FileTree) : Left :=
  if parents then
    let (files, result) := files.makeDirs ⟨p⟩
    .quiet (if result.toBool then 0 else 1) files
  else if files.has ⟨p⟩ || !isDirectory files (frontPart p) then .quiet 1 files
  else .quiet 0 (files.makeDirs ⟨p⟩).1

def remove (recursive force : Bool) (p : String) (files : FileTree) : Left :=
  if !files.has ⟨p⟩ then .quiet (if force then 0 else 1) files
  else if isDirectory files p then
    if recursive then .ofChange files (files.removeDir ⟨p⟩) else .quiet 1 files
  else .ofChange files (files.removeFile ⟨p⟩)

def touch (p : String) (files : FileTree) : Left :=
  if files.has ⟨p⟩ then .quiet 0 files else .ofChange files (files.write ⟨p⟩ .empty)

/-- Print the input and write it to files as well. -/
def tee (args : List String) (input : ByteArray) (files : FileTree) : Left :=
  let l := forEach (fun p files => .ofChange files (files.write ⟨p⟩ input)) (operands args) files
  { l with out := input }

/-- The names in a directory, sorted, without the hidden ones. -/
def listNames (p : String) (files : FileTree) : Left :=
  match files.locate ⟨p⟩ with
  | .error _ => .quiet 2 files
  | .ok loc =>
    if isDirectory files p then
      let names := (files.children loc).filter fun name => !name.startsWith "."
      .print (String.join ((names.mergeSort fun a b => a ≤ b).map (· ++ "\n"))) files
    else if files.has ⟨p⟩ then .print (p ++ "\n") files
    else .quiet 2 files

def listTool : Tool := fun args _ files =>
  match operands args with
  | [] => listNames "." files
  | ps => forEach listNames ps files

/-! ### Parts of files -/

def lineEnd : UInt8 := 10

/-- The first lines. -/
def headLines : Nat → List UInt8 → List UInt8
  | 0, _ => []
  | _, [] => []
  | n + 1, b :: rest => b :: headLines (if b = lineEnd then n else n + 1) rest

def headPart (bytes : Bool) (count : Nat) (content : ByteArray) : ByteArray :=
  if bytes then content.extract 0 count else ⟨(headLines count content.data.toList).toArray⟩

def headFiles (bytes : Bool) (count : Nat) (args : List String) (input : ByteArray)
    (files : FileTree) : Left :=
  let l := cat args input files
  { l with out := headPart bytes count l.out }

def headTool : Tool := fun args input files =>
  let go := fun (bytes : Bool) (count : String) (rest : List String) =>
    match count.toNat? with
    | some n => headFiles bytes n rest input files
    | none => .quiet 1 files
  match args with
  | "-c" :: count :: rest => go true count rest
  | "-n" :: count :: rest => go false count rest
  | arg :: rest =>
    if arg.startsWith "-c" then go true (String.ofList (arg.toList.drop 2)) rest
    else if arg.startsWith "-n" then go false (String.ofList (arg.toList.drop 2)) rest
    else if isOption arg then go false (String.ofList (arg.toList.drop 1)) rest
    else headFiles false 10 args input files
  | [] => headFiles false 10 [] input files

/-- Count the bytes or the lines of the input. -/
def countTool : Tool := fun args input files =>
  let l := cat (operands args) input files
  let count :=
    if (letters args).contains 'l' then (l.out.data.toList.filter (· = lineEnd)).length
    else l.out.size
  let name := match operands args with | [p] => " " ++ p | _ => ""
  { l with out := (toString count ++ name ++ "\n").toUTF8 }

/-! ### Texts -/

/-- Replace the escapes that stand for characters. -/
def unescape : List Char → List Char
  | '\\' :: 'n' :: rest => '\n' :: unescape rest
  | '\\' :: 't' :: rest => '\t' :: unescape rest
  | '\\' :: 'r' :: rest => '\r' :: unescape rest
  | '\\' :: '\\' :: rest => '\\' :: unescape rest
  | c :: rest => c :: unescape rest
  | [] => []

def echo : Tool := fun args _ files =>
  let (words, ending) := match args with | "-n" :: rest => (rest, "") | _ => (args, "\n")
  .print (String.ofList (unescape (" ".intercalate words).toList) ++ ending) files

/-- Fill a format once.  Arguments that are missing are empty. -/
def fill : List Char → List String → List Char × List String
  | '%' :: '%' :: rest, args =>
    let (text, left) := fill rest args
    ('%' :: text, left)
  | '%' :: 's' :: rest, args =>
    let (text, left) := fill rest (args.drop 1)
    ((args.headD "").toList ++ text, left)
  | '%' :: 'd' :: rest, args =>
    let (text, left) := fill rest (args.drop 1)
    ((args.headD "0").toList ++ text, left)
  | c :: rest, args =>
    let (text, left) := fill rest args
    (c :: text, left)
  | [], args => ([], args)

/-- Fill a format as often as there are arguments for it. -/
def fillAll (format : List Char) : Nat → List String → List Char
  | 0, _ => []
  | n + 1, args =>
    let (text, left) := fill format args
    if left.isEmpty || left.length = args.length then text else text ++ fillAll format n left

def printTool : Tool := fun args _ files =>
  match args with
  | format :: rest =>
    .print (String.ofList (fillAll (unescape format.toList) (rest.length + 1) rest)) files
  | [] => .quiet 2 files

/-! ### Tests -/

/-- A question about a file or a text. -/
def ask (files : FileTree) (question p : String) : Option Bool :=
  match question with
  | "-e" => some (files.has ⟨p⟩)
  | "-d" => some (isDirectory files p)
  | "-f" | "-r" | "-w" => some (files.has ⟨p⟩ && !isDirectory files p)
  | "-s" => some (match files.read ⟨p⟩ with | .ok bytes => bytes.size ≠ 0 | .error _ => false)
  | "-n" => some (p ≠ "")
  | "-z" => some (p = "")
  | _ => none

def compareTexts (a operator b : String) : Option Bool :=
  match operator with
  | "=" => some (a = b)
  | "!=" => some (a ≠ b)
  | "-eq" => do some ((← a.toNat?) == (← b.toNat?))
  | "-ne" => do some ((← a.toNat?) != (← b.toNat?))
  | "-lt" => do some (decide ((← a.toNat?) < (← b.toNat?)))
  | "-gt" => do some (decide ((← b.toNat?) < (← a.toNat?)))
  | _ => none

def judge (files : FileTree) : List String → Option Bool
  | [] => some false
  | "!" :: rest => (judge files rest).map not
  | [a] => some (a ≠ "")
  | [question, a] => ask files question a
  | [a, operator, b] => compareTexts a operator b
  | _ => none

def test : Tool := fun args _ files =>
  match judge files args with
  | some true => .quiet 0 files
  | some false => .quiet 1 files
  | none => .quiet 2 files

/-- The same in brackets. -/
def bracketTest : Tool := fun args input files =>
  if args.getLast? = some "]" then test args.dropLast input files else .quiet 2 files

/-! ### All tools -/

def baseName : Tool := fun args _ files =>
  match args with
  | [p] => .print (lastPart p ++ "\n") files
  | [p, ending] =>
    let name := lastPart p
    let short := if name.endsWith ending && name ≠ ending then
      String.ofList (name.toList.take (name.length - ending.length)) else name
    .print (short ++ "\n") files
  | _ => .quiet 1 files

def dirName : Tool := fun args _ files =>
  match args with
  | [p] => .print (frontPart p ++ "\n") files
  | _ => .quiet 1 files

/-- The tools by their names. -/
def tool? (name : String) : Option Tool :=
  match name with
  | "true" | "sleep" => some fun _ _ files => .quiet 0 files
  | "false" => some fun _ _ files => .quiet 1 files
  | "echo" => some echo
  | "printf" => some printTool
  | "cat" => some cat
  | "cp" => some (transfer copyTo)
  | "mv" => some (transfer moveTo)
  | "rm" => some fun args _ files =>
    forEach (remove ((letters args).any fun c => c = 'r' ∨ c = 'R') ((letters args).contains 'f'))
      (operands args) files
  | "mkdir" => some fun args _ files =>
    forEach (makeDirectory ((letters args).contains 'p')) (operands args) files
  | "touch" => some fun args _ files => forEach touch (operands args) files
  | "tee" => some tee
  | "ls" => some listTool
  | "head" => some headTool
  | "wc" => some countTool
  | "basename" => some baseName
  | "dirname" => some dirName
  | "pwd" => some fun _ _ files => .print (place files ++ "\n") files
  | "test" => some test
  | "[" => some bracketTest
  | _ => none

end Rehearsal
end TaskGen
