import TaskGen.Dict
import TaskGen.Json.Document

/-!
A table can be written in several places.  What may be added to it later depends on how it
came about.
-/

namespace TaskGen
namespace Toml

/-- How a table came about. -/
inductive Origin where
  /-- It is the whole text, it has a header of its own, or it is an element of an array
  of tables. -/
  | header
  /-- The header of a table further inside named it. -/
  | longerHeader
  /-- A dotted key named it. -/
  | dottedKey
  deriving DecidableEq

inductive Item where
  /-- Text, number, truth value or date. -/
  | scalar (d : Json.Document)
  | array (items : List Item)
  /-- A table in braces, to which nothing can be added. -/
  | closed (entries : List (String × Item))
  | table (origin : Origin) (entries : List (String × Item))
  /-- An array of tables. -/
  | tables (elements : List Item)

abbrev Entries := Dict Item

/-- Change the table under a path, and make the tables on the way that are missing.  The
last element stands for an array of tables.  A dotted key cannot reach into a table with
its own header. -/
def editAt (dotted : Bool) (edit : Origin → Entries → Option Entries) :
    List String → Origin → Entries → Option Entries
  | [], origin, entries => edit origin entries
  | key :: rest, _, entries => do
    match Dict.find? entries key with
    | none =>
      let origin := if dotted then Origin.dottedKey else .longerHeader
      let inner ← editAt dotted edit rest origin []
      some (Dict.insert entries key (.table origin inner))
    | some (.table origin inner) =>
      if dotted ∧ origin = .header then none
      else
        let inner ← editAt dotted edit rest origin inner
        some (Dict.insert entries key (.table origin inner))
    | some (.tables elements) =>
      match elements.getLast? with
      | some (.table origin inner) =>
        let inner ← editAt dotted edit rest origin inner
        some (Dict.insert entries key (.tables (elements.dropLast ++ [.table origin inner])))
      | _ => none
    | some _ => none

/-- Add a value under a dotted key.  Behind a dot only a table can grow that dotted keys
have made. -/
def addValue (path : List String) (key : String) (value : Item) :
    Origin → Entries → Option Entries :=
  editAt true (fun origin entries =>
    if (decide (origin = .dottedKey) == path.isEmpty) ∨ Dict.contains entries key then none
    else some (Dict.insert entries key value)) path

/-- Open the table with the given header.  A table has at most one header. -/
def openTable (path : List String) (key : String) : Entries → Option Entries :=
  editAt false (fun _ entries =>
    match Dict.find? entries key with
    | none => some (Dict.insert entries key (.table .header []))
    | some (.table .longerHeader inner) => some (Dict.insert entries key (.table .header inner))
    | some _ => none) path .header

/-- Open a further element of the array of tables with the given header. -/
def openElement (path : List String) (key : String) : Entries → Option Entries :=
  editAt false (fun _ entries =>
    match Dict.find? entries key with
    | none => some (Dict.insert entries key (.tables [.table .header []]))
    | some (.tables elements) =>
      some (Dict.insert entries key (.tables (elements ++ [.table .header []])))
    | some _ => none) path .header

mutual
/-- What the item says, in the form that typed data is read from. -/
def Item.document : Item → Json.Document
  | .scalar d => d
  | .array items => .array 0 (documents items)
  | .closed entries => .object 0 (members entries)
  | .table _ entries => .object 0 (members entries)
  | .tables elements => .array 0 (documents elements)

def documents : List Item → List Json.Document
  | [] => []
  | item :: rest => item.document :: documents rest

def members : List (String × Item) → List (Option String × Json.Document)
  | [] => []
  | (key, item) :: rest => (some key, item.document) :: members rest
end

end Toml
end TaskGen
