import TaskGen.Catalog.Source

namespace TaskGen
namespace Catalog

/-- Templates with all inherited options filled in. -/
abbrev Templates := Dict (List ConfiguredStage)

def readOwnStages (owner : String) : Nat → List Json.Value → Except Error (List ConfiguredStage)
  | _, [] => .ok []
  | index, v :: rest => do
    let (stage, options) ← readPlugin owner index false v
    let more ← readOwnStages owner (index + 1) rest
    .ok (⟨stage, options⟩ :: more)

/-- The first shared stage behind one that is not shared.  There the shared stages would
not be a front part of the pipeline. -/
def misplaced? : List ConfiguredStage → Option Stage
  | stages => ((stages.dropWhile (·.stage.isShared)).find? (·.stage.isShared)).map (·.stage)

/-- The stages of a template by itself. -/
def ownStages (id : String) (t : TemplateSource) : Except Error (List ConfiguredStage) := do
  match t.plugins with
  | none => .error (.templateWithoutPlugins id)
  | some plugins =>
    let stages ← readOwnStages id 0 plugins
    match misplaced? stages with
    | some stage => .error (.misplacedSharedStage id stage)
    | none => .ok stages

/-- A template with its stages read and its inheritance still open. -/
structure OpenTemplate where
  id : String
  base : Option String
  stages : List ConfiguredStage

/-- The options of the first stage of that name in the base, overridden by the own ones. -/
def inheritStage (base : List ConfiguredStage) (c : ConfiguredStage) : ConfiguredStage :=
  match base.find? (fun b => b.stage == c.stage) with
  | some b => { c with options := Options.merge b.options c.options }
  | none => c

def inherit (base own : List ConfiguredStage) : List ConfiguredStage :=
  own.map (inheritStage base)

/-- The stages of a template, if its base is settled. -/
def settle? (settled : Templates) (t : OpenTemplate) : Option (List ConfiguredStage) :=
  match t.base with
  | none => some t.stages
  | some base => (Dict.find? settled base).map fun b => inherit b t.stages

def ready (settled : Templates) (waiting : List OpenTemplate) : List OpenTemplate :=
  waiting.filter fun t => (settle? settled t).isSome

def unready (settled : Templates) (waiting : List OpenTemplate) : List OpenTemplate :=
  waiting.filter fun t => !(settle? settled t).isSome

theorem length_unready_lt {settled : Templates} {waiting : List OpenTemplate}
    (h : ready settled waiting ≠ []) : (unready settled waiting).length < waiting.length := by
  obtain ⟨t, ht⟩ := List.exists_mem_of_ne_nil _ h
  obtain ⟨hmem, hready⟩ := List.mem_filter.1 ht
  refine Nat.lt_of_le_of_ne (List.length_filter_le _ _) fun heq => ?_
  have := List.length_filter_eq_length_iff.1 heq t hmem
  simp [hready] at this

def settleRound (settled : Templates) (ts : List OpenTemplate) : Templates :=
  ts.foldl (fun acc t => Dict.insert acc t.id ((settle? settled t).getD [])) settled

/-- Settle in rounds all templates whose bases are settled.  What is left over at the end
derives from itself. -/
def settleAll (settled : Templates) (waiting : List OpenTemplate) :
    Templates × List OpenTemplate :=
  if _h : ready settled waiting = [] then (settled, waiting)
  else settleAll (settleRound settled (ready settled waiting)) (unready settled waiting)
termination_by waiting.length
decreasing_by exact length_unready_lt _h

def checkBases (sources : Dict TemplateSource) : List (String × TemplateSource) → Except Error Unit
  | [] => .ok ()
  | (id, t) :: rest =>
    match t.base with
    | some base =>
      if Dict.contains sources base then checkBases sources rest
      else .error (.unknownTemplate base id)
    | none => checkBases sources rest

/-- Settle all templates of a catalog. -/
def settleTemplates (sources : Dict TemplateSource) : Except Error Templates := do
  let waiting ← sources.mapM fun (id, t) => do .ok (⟨id, t.base, ← ownStages id t⟩ : OpenTemplate)
  checkBases sources sources
  match settleAll [] waiting with
  | (settled, []) => .ok settled
  | (_, rest) => .error (.templateCycle (rest.map (·.id)))

end Catalog
end TaskGen
