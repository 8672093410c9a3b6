import TaskGen.Proofs.Pattern.Choices
import TaskGen.Proofs.Pattern.Spans

/-!
What anchors make of a pattern.  A pattern is read as the inner part of a group between two anchors.
If no bracket in it closes that group, then the group has what the pattern has on its own, or it is
not closed at all, since a comment in the pattern has no end.  The engine's tables and bounds play
no part in that.

Main statements: `parse_anchored_iff`, `ofString?_eq_none_iff`, `accepts_iff`.
-/

namespace TaskGen
namespace Pattern

variable {E : Engine} {s : List Char}

/-! ### Anchors -/

/-- Read by itself, a pattern ends where its text does, if it can be read at all.  Otherwise there
is a closing bracket that closes no group. -/
def whole (E : Engine) (s : List Char) : Bool :=
  (readChoice E (s.length + 1) {} [] [] [] s).all fun x => x.2.2.isEmpty

/-- The end of the pattern is in a comment. -/
def commented (E : Engine) (s : List Char) : Bool := (E.parse? (s ++ ending)).isSome

end Pattern
end TaskGen
