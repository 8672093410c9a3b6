import TaskGen.Act
import TaskGen.Catalog
import TaskGen.Config
import TaskGen.Fragment.Listing
import TaskGen.RequirementClass

/-! What a configuration refers to: the requirements to check and the fragments. -/

namespace TaskGen
namespace Setup

variable {σ : Type}

inductive Error where
  /-- The listing cannot be read, or not be removed. -/
  | io
  | listing (m : Listing.Malformed)
  | catalog (e : Catalog.Error)

def Error.message : Error → String
  | .io => "configuration error: IO error"
  | .listing m => "configuration error: " ++ m.message
  | .catalog e => "requirement catalog error: " ++ e.message

/-- The list of the selected requirements, for those who keep intermediate files. -/
def checkedSpecifications : Path := ⟨"checked requirement specifications.json"⟩

/-- Select the configured requirements from the text of a catalog. -/
def selectFrom (c : Config) (text : String) : Except Catalog.Error (List Requirement) := do
  (← Catalog.parse text).select c.patterns

/-- Load the catalog and classify the configured requirements. -/
def loadClasses (c : Config) : Act σ Error RequirementClasses := do
  let unreadable := fun _ : FileError => Error.catalog .io
  let base := c.resolve c.specificationsBase
  let text ← (Act.inspect fun files => files.readText base).mapError unreadable
  let selected ← (Act.ofExcept (selectFrom c text)).mapError Error.catalog
  if c.keepFiles then
    let target := c.resolve checkedSpecifications
    let bytes := (checkedText selected).toUTF8
    (Act.change fun files => files.write target bytes).mapError unreadable
  pure (.classify selected)

/-- Load the listing of the fragments, the configured one if no other is given.  It is used
up by that, unless intermediate files are kept. -/
def loadFragments (c : Config) (listing : Option Path) : Act σ Error FragmentSet := do
  let io := fun _ : FileError => Error.io
  let file := c.resolve (listing.getD c.fragmentsFile)
  let text ← (Act.inspect fun files => files.readText file).mapError io
  let set ← (Act.ofExcept (Listing.parse text c.mainDirectory)).mapError Error.listing
  if !c.keepFiles then
    (Act.change fun files => files.removeFile file).mapError io
  pure set

end Setup
end TaskGen
