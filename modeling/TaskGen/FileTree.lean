import TaskGen.Path

/-!
Files and directories, held as a list of entries.  A place in the tree is the list of names
that lead to it from the top.
-/

namespace TaskGen

/-- Where something is: the names on the way from the top. -/
abbrev Location := List String

inductive Entry where
  | file (bytes : ByteArray)
  | directory

/-- Why a file operation fails.  Whether something is missing matters to some callers, and
all other reasons are the same to everyone. -/
inductive FileError where
  | missing
  | refused
  deriving DecidableEq, Repr

structure FileTree where
  entries : List (Location × Entry)
  /-- Where relative paths start. -/
  here : Location

namespace FileTree

/-- The top alone. -/
def empty : FileTree := ⟨[], []⟩

/-- What is at a place.  The top is always a directory. -/
def get? (t : FileTree) (loc : Location) : Option Entry :=
  if loc = [] then some .directory else t.entries.lookup loc

def put (t : FileTree) (loc : Location) (e : Entry) : FileTree :=
  { t with entries := (loc, e) :: t.entries.filter fun p => p.1 ≠ loc }

theorem lookup_filter_ne {loc other : Location} (h : other ≠ loc)
    (entries : List (Location × Entry)) :
    (entries.filter fun p => p.1 ≠ loc).lookup other = entries.lookup other := by
  induction entries with
  | nil => rfl
  | cons p rest ih =>
    obtain ⟨q, e⟩ := p
    by_cases hq : q = loc
    · have ho : (other == q) = false := by simpa [hq] using h
      rw [List.filter_cons_of_neg (by simp [hq]), List.lookup_cons, ho]
      exact ih
    · rw [List.filter_cons_of_pos (by simp [hq]), List.lookup_cons, List.lookup_cons, ih]

theorem get?_put_self {loc : Location} (h : loc ≠ []) (t : FileTree) (e : Entry) :
    (t.put loc e).get? loc = some e := by
  simp [get?, put, h]

theorem get?_put_of_ne {loc other : Location} (h : other ≠ loc) (t : FileTree) (e : Entry) :
    (t.put loc e).get? other = t.get? other := by
  have hb : (other == loc) = false := by simpa using h
  unfold get? put
  split
  · rfl
  · simp only [List.lookup_cons, hb]
    exact lookup_filter_ne h t.entries

/-- Without a place and everything below it. -/
def prune (t : FileTree) (loc : Location) : FileTree :=
  { t with entries := t.entries.filter fun p => !loc.isPrefixOf p.1 }

/-- The same tree for somebody in another directory. -/
def inside (t : FileTree) (here : Location) : FileTree := { t with here }

/-! ### Paths -/

/-- The longest name in bytes. -/
def longestName : Nat := 255

/-- Follow names from a place.  Every place on the way has to be a directory. -/
def walk (t : FileTree) : Location → List String → Except FileError Location
  | loc, [] => .ok loc
  | loc, name :: rest =>
    match t.get? loc with
    | none => .error .missing
    | some (.file _) => .error .refused
    | some .directory =>
      if name = "." then walk t loc rest
      else if name = ".." then walk t loc.dropLast rest
      else if longestName < name.utf8ByteSize then .error .refused
      else walk t (loc ++ [name]) rest

/-- The names to follow for a path.  What ends in a slash has to be a directory, as if a dot
followed. -/
def names (p : Path) : List String :=
  let parts := p.parts
  parts.filter (· ≠ "") ++ if parts.getLast? == some "" then ["."] else []

/-- The place that a path leads to.  There need not be anything. -/
def locate (t : FileTree) (p : Path) : Except FileError Location :=
  if p.text.isEmpty then .error .missing
  else if p.text.toList.contains (Char.ofNat 0) then .error .refused
  else t.walk (if p.isAbsolute then [] else t.here) (names p)

/-! ### Reading -/

def find (t : FileTree) (p : Path) : Except FileError Entry := do
  match t.get? (← t.locate p) with
  | some e => .ok e
  | none => .error .missing

def has (t : FileTree) (p : Path) : Bool :=
  match t.find p with
  | .ok _ => true
  | .error _ => false

def read (t : FileTree) (p : Path) : Except FileError ByteArray := do
  match ← t.find p with
  | .file bytes => .ok bytes
  | .directory => .error .refused

/-- Read a file that has to be UTF-8. -/
def readText (t : FileTree) (p : Path) : Except FileError String := do
  match String.fromUTF8? (← t.read p) with
  | some text => .ok text
  | none => .error .refused

/-! ### Writing -/

/-- Write a file in a directory that exists, in place of one that is there. -/
def write (t : FileTree) (p : Path) (bytes : ByteArray) : Except FileError FileTree := do
  let loc ← t.locate p
  match t.get? loc with
  | some .directory => .error .refused
  | _ => .ok (t.put loc (.file bytes))

/-- Copy a file.  The target is emptied before anything is read, so a file that is copied
onto itself is empty afterwards. -/
def copy (t : FileTree) (source target : Path) : Except FileError FileTree := do
  let bytes ← t.read source
  let same := (← t.locate source) == (← t.locate target)
  t.write target (if same then .empty else bytes)

/-- Make the directories on the way to a place, up to where it is not possible. -/
def makeWay (t : FileTree) : Location → List String → FileTree × Except FileError Unit
  | loc, names =>
    match t.get? loc with
    | some (.file _) => (t, .error .refused)
    | found =>
      let t := if found.isNone then t.put loc .directory else t
      match names with
      | [] => (t, .ok ())
      | name :: rest =>
        if name = "." then makeWay t loc rest
        else if name = ".." then makeWay t loc.dropLast rest
        else if longestName < name.utf8ByteSize then (t, .error .refused)
        else makeWay t (loc ++ [name]) rest

/-- Make a directory and those on the way to it that are missing.  On an error those that
could be made stay. -/
def makeDirs (t : FileTree) (p : Path) : FileTree × Except FileError Unit :=
  if p.text.toList.contains (Char.ofNat 0) then (t, .error .refused)
  else t.makeWay (if p.isAbsolute then [] else t.here) (names p)

/-! ### Removing -/

def removeFile (t : FileTree) (p : Path) : Except FileError FileTree := do
  let loc ← t.locate p
  match t.get? loc with
  | some (.file _) => .ok (t.prune loc)
  | some .directory => .error .refused
  | none => .error .missing

/-- Remove a directory with everything in it. -/
def removeDir (t : FileTree) (p : Path) : Except FileError FileTree := do
  let loc ← t.locate p
  match t.get? loc with
  | some .directory => .ok (t.prune loc)
  | some (.file _) => .error .refused
  | none => .error .missing

/-! ### Listing -/

/-- The names of what is in a directory. -/
def children (t : FileTree) (loc : Location) : List String :=
  t.entries.filterMap fun p =>
    if p.1.dropLast = loc then p.1.getLast? else none

/-- What a listing shows of an entry below `top`: the way to it, with a slash at the end of
a directory.  A directory shows only if it is empty. -/
def listingLine? (t : FileTree) (top : Location) (p : Location × Entry) : Option String :=
  if top.isPrefixOf p.1 ∧ p.1 ≠ top then
    let way := "/".intercalate (p.1.drop top.length)
    match p.2 with
    | .file _ => some way
    | .directory => if (t.children p.1).isEmpty then some (way ++ "/") else none
  else none

/-- All files below a place, sorted. -/
def listing (t : FileTree) (top : Location) : List String :=
  (t.entries.filterMap (t.listingLine? top)).mergeSort fun a b => a ≤ b

end FileTree
end TaskGen
