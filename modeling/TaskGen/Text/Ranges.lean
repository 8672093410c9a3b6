namespace TaskGen
namespace Text

/-- Whether a number lies in one of the ranges.  The ranges are in increasing order, so
the first one that begins above the number ends the search. -/
def inRanges : List (Nat × Nat) → Nat → Bool
  | [], _ => false
  | (low, high) :: rest, n => if n < low then false else n ≤ high || inRanges rest n

end Text
end TaskGen
