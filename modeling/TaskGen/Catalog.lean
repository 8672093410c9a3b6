import TaskGen.Catalog.Tree
import TaskGen.Json.Printer
import TaskGen.Pattern.Reader

namespace TaskGen

/-- A catalog of requirements.  Every requirement names a template.  The template gives
the stages and their options, and the requirement overrides some of the options. -/
structure Catalog where
  templates : Catalog.Templates
  leaves : Dict Catalog.Leaf

namespace Catalog

def ofSource (s : Source) : Except Error Catalog := do
  match s.templates with
  | none => .error (.missingAttribute "templates")
  | some sources =>
    match s.root with
    | none => .error (.missingAttribute "requirement specifications")
    | some root =>
      let templates ← settleTemplates sources
      let leaves ← flatten templates root
      .ok ⟨templates, leaves⟩

def parse (text : String) : Except Error Catalog := do ofSource (← Source.parse text)

def identifiers (c : Catalog) : List String := Dict.keys c.leaves

/-- Override options of the first stage of that kind.  There is none without such a
stage. -/
def override? (stage : Stage) (options : Options) :
    List ConfiguredStage → Option (List ConfiguredStage)
  | [] => none
  | c :: rest =>
    if c.stage = stage then some ({ c with options := Dict.extend c.options options } :: rest)
    else (override? stage options rest).map (c :: ·)

def pluginName (v : Json.Value) : String :=
  match v with
  | .object members => ((Dict.find? members "name").bind Json.Value.string?).getD ""
  | _ => ""

/-- Apply the overrides of a requirement in turn.  `strangers` are the names of plugins
that are not in the pipeline.  They are collected, and all other faults end the work. -/
def applyOverrides (id : String) : Nat → List Json.Value → List ConfiguredStage → List String →
    Except Error (List ConfiguredStage × List String)
  | _, [], pipeline, strangers => .ok (pipeline, strangers)
  | index, v :: rest, pipeline, strangers =>
    match readPlugin id index true v with
    | .error (.unknownPlugin _ _) =>
      applyOverrides id (index + 1) rest pipeline (strangers ++ [pluginName v])
    | .error e => .error e
    | .ok (stage, options) =>
      match override? stage options pipeline with
      | some pipeline => applyOverrides id (index + 1) rest pipeline strangers
      | none => applyOverrides id (index + 1) rest pipeline (strangers ++ [pluginName v])

/-- Combine a requirement with its template. -/
def resolve (c : Catalog) (id : String) : Except Error Requirement := do
  match Dict.find? c.leaves id with
  | none => .error (.noTemplate id)
  | some leaf =>
    match Dict.find? c.templates leaf.template with
    | none => .error (.unknownTemplate leaf.template id)
    | some stages =>
      let (pipeline, strangers) ← applyOverrides id 0 leaf.overrides stages []
      if strangers.isEmpty then .ok ⟨id, pipeline⟩
      else .error (.unmatchedPlugins id strangers)

def compile (E : Pattern.Engine) (patterns : List String) : Except Error (List Pattern) :=
  patterns.mapM fun p =>
    match E.ofString? p with
    | some compiled => .ok compiled
    | none => .error (.invalidPattern p)

/-- The position of the first pattern that accepts the identifier. -/
def firstMatch? (patterns : List Pattern) (id : String) : Option Nat :=
  patterns.findIdx? (·.accepts id)

/-- The patterns that are the first match of no identifier. -/
def unmatched (ids : List String) (compiled : List Pattern) (patterns : List String) :
    List String :=
  let hits := ids.filterMap (firstMatch? compiled)
  (patterns.zipIdx.filter fun p => !hits.contains p.2).map (·.1)

/-- The requirements that one of the patterns accepts, in the order of their
identifiers. -/
def select (c : Catalog) (patterns : List String) (E : Pattern.Engine := .standard) :
    Except Error (List Requirement) := do
  let compiled ← compile E patterns
  let missing := unmatched c.identifiers compiled patterns
  if !missing.isEmpty then .error (.unmatchedPatterns missing)
  else (c.identifiers.filter fun id => (firstMatch? compiled id).isSome).mapM c.resolve

end Catalog

/-- The list of the checked requirements as it is kept beside a run. -/
def checkedText (rs : List Requirement) : String :=
  (Json.Value.array (rs.map (·.toJson))).pretty

end TaskGen
