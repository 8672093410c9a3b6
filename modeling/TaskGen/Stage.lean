import TaskGen.Json.Decode

namespace TaskGen

/-- The stages that a requirement's pipeline may use.  The set is closed. -/
inductive Stage where
  | sourceAnalysis
  | environmentModel
  | requirementModel
  | weaver
  | taskPreparation
  deriving DecidableEq, Repr

namespace Stage

/-- All stages, in the order in which they are listed everywhere. -/
def all : List Stage :=
  [.sourceAnalysis, .environmentModel, .requirementModel, .weaver, .taskPreparation]

theorem mem_all (s : Stage) : s ∈ all := by cases s <;> decide

/-- The name in catalogs, in the configuration and in the names of artifacts. -/
def name : Stage → String
  | .sourceAnalysis => "SA"
  | .environmentModel => "EMG"
  | .requirementModel => "RSG"
  | .weaver => "Weaver"
  | .taskPreparation => "FVTP"

theorem name_injective {s t : Stage} (h : s.name = t.name) : s = t := by
  cases s <;> cases t <;> first | rfl | simp [name] at h

/-- The name of the working directory of the stage: the name in lower case. -/
def dirName : Stage → String
  | .sourceAnalysis => "sa"
  | .environmentModel => "emg"
  | .requirementModel => "rsg"
  | .weaver => "weaver"
  | .taskPreparation => "fvtp"

/-- The result of such a stage depends on nothing but the fragment and the options.  So
it can serve all requirements with the same options. -/
def isShared : Stage → Bool
  | .sourceAnalysis | .environmentModel => true
  | _ => false

/-- A name that no stage has. -/
structure Unknown where
  name : String

def Unknown.message (u : Unknown) : String :=
  "unknown stage '" ++ u.name ++ "', expected one of " ++ ", ".intercalate (all.map Stage.name)

def ofName (name : String) : Except Unknown Stage :=
  match all.find? (fun s => s.name == name) with
  | some s => .ok s
  | none => .error ⟨name⟩

theorem ofName_name (s : Stage) : ofName s.name = .ok s := by cases s <;> rfl

def ofDocument? (d : Json.Document) : Option Stage := do (ofName (← d.choice?)).toOption

def toJson (s : Stage) : Json.Value := .string s.name

end Stage
end TaskGen
