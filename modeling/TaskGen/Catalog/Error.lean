import TaskGen.Stage

namespace TaskGen
namespace Catalog

/-- What is wrong with the description of a plugin. -/
inductive PluginFault where
  | notAnObject
  | noName
  | optionsNotAnObject
  | noOptions

def PluginFault.message : PluginFault → String
  | .notAnObject => "not an object"
  | .noName => "missing \"name\""
  | .optionsNotAnObject => "\"options\" is not an object"
  | .noOptions => "missing \"options\""

/-- What is wrong with the tree of requirements. -/
inductive TreeFault where
  | noRequirements
  /-- The parent is empty for the nodes at the top. -/
  | noIdentifier (parent : String)
  | childrenAndPlugins (id : String)
  | repeated (id : String)

def TreeFault.message : TreeFault → String
  | .noRequirements => "specifications base does not describe any requirement"
  | .noIdentifier parent =>
    "identifier is not specified for a child of \"" ++
      (if parent.isEmpty then "root" else parent) ++ "\""
  | .childrenAndPlugins id => "\"" ++ id ++ "\" has both children and plugins"
  | .repeated id => "requirement \"" ++ id ++ "\" is described more than once"

/-- Why a catalog cannot be loaded, or requirements cannot be selected from it. -/
inductive Error where
  /-- The file cannot be read. -/
  | io
  /-- The text is no JSON, or no catalog. -/
  | json
  | missingAttribute (name : String)
  | templateWithoutPlugins (template : String)
  | unknownTemplate (template referrer : String)
  | templateCycle (templates : List String)
  | noTemplate (requirement : String)
  | invalidPlugin (owner : String) (index : Nat) (fault : PluginFault)
  | unknownPlugin (owner name : String)
  | unmatchedPlugins (requirement : String) (names : List String)
  | misplacedSharedStage (owner : String) (stage : Stage)
  | invalidPattern (pattern : String)
  | unmatchedPatterns (patterns : List String)
  | malformedTree (fault : TreeFault)

def quoted (s : String) : String := "\"" ++ s ++ "\""

def listed (names : List String) : String := ", ".intercalate names

def Error.message : Error → String
  | .io => "I/O error"
  | .json => "JSON error"
  | .missingAttribute name => "specifications base has no mandatory attribute " ++ quoted name
  | .templateWithoutPlugins t =>
    "template " ++ quoted t ++ " has no mandatory attribute \"plugins\""
  | .unknownTemplate t referrer =>
    "template " ++ quoted t ++ " referenced by " ++ quoted referrer ++ " is not described"
  | .templateCycle ts => "template inheritance cycle among: " ++ listed ts
  | .noTemplate r => "template is not specified for requirement " ++ quoted r
  | .invalidPlugin owner index fault =>
    "invalid description of plugin " ++ toString index ++ " of " ++ quoted owner ++ ": " ++
      fault.message
  | .unknownPlugin owner name => "unknown plugin " ++ quoted name ++ " in " ++ quoted owner
  | .unmatchedPlugins r names =>
    "plugins of requirement " ++ quoted r ++ " are not described within its template: " ++
      listed names
  | .misplacedSharedStage owner stage =>
    "stage " ++ quoted stage.name ++ " of " ++ quoted owner ++
      " must precede all per-requirement stages"
  | .invalidPattern p => "invalid requirement pattern " ++ quoted p
  | .unmatchedPatterns ps => "requirement patterns were not matched: " ++ listed ps
  | .malformedTree fault => "malformed requirement tree: " ++ fault.message

end Catalog
end TaskGen
