import TaskGen.Digest.Sha224
import TaskGen.Json.Printer
import TaskGen.Requirement

/-!
Requirements with the same shared stages form a class: what these stages produce for a
fragment is produced once and serves all members.
-/

namespace TaskGen

/-- A class has at least one member.  The first one is the pilot.  Its shared stages are
the ones that are run. -/
structure RequirementClass where
  key : String
  pilot : Requirement
  others : List Requirement

namespace RequirementClass

/-- The members in the order in which they joined. -/
def members (c : RequirementClass) : List Requirement := c.pilot :: c.others

def size (c : RequirementClass) : Nat := c.others.length + 1

def identifiers (c : RequirementClass) : List String := c.members.map (·.identifier)

def member? (c : RequirementClass) (identifier : String) : Option Requirement :=
  c.members.find? (·.identifier == identifier)

def sharedStages (c : RequirementClass) : List ConfiguredStage := c.pilot.sharedStages

def join (c : RequirementClass) (r : Requirement) : RequirementClass :=
  { c with others := c.others ++ [r] }

@[simp] theorem members_join (c : RequirementClass) (r : Requirement) :
    (c.join r).members = c.members ++ [r] := rfl

def toJson (c : RequirementClass) : Json.Value :=
  .object [("key", .string c.key), ("members", .array (c.members.map (·.toJson)))]

end RequirementClass

/-- The classes of the checked requirements, each under its key. -/
abbrev RequirementClasses := Dict RequirementClass

namespace RequirementClasses

def totalRequirements (cs : RequirementClasses) : Nat :=
  (Dict.values cs).foldl (fun n c => n + c.size) 0

/-- All members of all classes. -/
def requirements (cs : RequirementClasses) : List Requirement :=
  (Dict.values cs).flatMap (·.members)

def toJson (cs : RequirementClasses) : Json.Value :=
  .object (Dict.mapValues RequirementClass.toJson cs)

end RequirementClasses

/-- The text whose digest names a pipeline: a list of stage names with their options.
The options are written in the order of their names. -/
def pipelineText (stages : List ConfiguredStage) : String :=
  (Json.Value.array (stages.map fun c =>
    .array [.string c.stage.name, .object c.options])).compact

def fingerprint (stages : List ConfiguredStage) : String :=
  Digest.Sha224.hex (pipelineText stages).toUTF8.toList

namespace RequirementClasses

/-- The keys that are tried for a digest, one after the other. -/
def slotName (digest : String) : Nat → String
  | 0 => digest
  | n + 1 => digest ++ "-" ++ toString (n + 1)

/-- The class may be kept here: there is none yet, or one with the same stages. -/
def isSlotFor (cs : RequirementClasses) (stages : List ConfiguredStage) (key : String) : Bool :=
  match Dict.find? cs key with
  | none => true
  | some c => samePipeline c.sharedStages stages

/-- Classes whose digests coincide are kept apart by numbers.  A map with `n` classes
leaves one of the first `n + 1` names free, so the search ends. -/
def slot (cs : RequirementClasses) (digest : String) (stages : List ConfiguredStage) : String :=
  (((List.range (cs.length + 1)).map (slotName digest)).find? (isSlotFor cs stages)).getD digest

/-- A requirement without shared stages is a class of its own, under its own name. -/
def place (digest : List ConfiguredStage → String) (cs : RequirementClasses) (r : Requirement) :
    RequirementClasses :=
  if r.sharedStages.isEmpty then Dict.insert cs r.identifier ⟨r.identifier, r, []⟩
  else
    let key := slot cs (digest r.sharedStages) r.sharedStages
    match Dict.find? cs key with
    | none => Dict.insert cs key ⟨key, r, []⟩
    | some c => Dict.insert cs key (c.join r)

/-- Sort requirements into classes, with any function for the digests. -/
def classifyWith (digest : List ConfiguredStage → String) (rs : List Requirement) :
    RequirementClasses := rs.foldl (place digest) []

def classify (rs : List Requirement) : RequirementClasses := classifyWith fingerprint rs

end RequirementClasses
end TaskGen
