import TaskGen.Pattern.CharSet

/-!
Regular expressions and where they can end.  A match is a pair of positions in a text.
Only whether there is one matters here, so a matcher follows sets of positions instead
of single attempts, and the preference of longer or shorter matches has no meaning.
-/

namespace TaskGen
namespace Pattern

inductive Look where
  | textStart
  | textEnd
  | lineStart
  | lineEnd
  /-- Lines that end in a carriage return, a line feed, or both. -/
  | crlfLineStart
  | crlfLineEnd
  | wordBoundary (inside : CharSet)
  | noWordBoundary (inside : CharSet)
  | wordStart (inside : CharSet)
  | wordEnd (inside : CharSet)
  | notAfterWord (inside : CharSet)
  | notBeforeWord (inside : CharSet)

inductive Expr where
  | empty
  /-- A class in brackets has levels of nesting in itself. -/
  | oneOf (s : CharSet) (levels : Nat)
  | look (l : Look)
  | group (e : Expr)
  | repeated (e : Expr) (min : Nat) (max : Option Nat)
  | sequence (es : List Expr)
  | choice (es : List Expr)

mutual
/-- Levels of nesting. -/
def Expr.depth : Expr → Nat
  | .empty | .look _ => 0
  | .oneOf _ levels => levels
  | .group e => e.depth + 1
  | .repeated e _ _ => e.depth + 1
  | .sequence es => depthOf es + 1
  | .choice es => depthOf es + 1

def depthOf : List Expr → Nat
  | [] => 0
  | e :: rest => max e.depth (depthOf rest)
end

mutual
/-- How many states the compiled expression has at least.  What is repeated is written out as often
as it is counted, and alternatives may share their states. -/
def Expr.states : Expr → Nat
  | .empty | .look _ => 0
  | .oneOf _ _ => 1
  | .group e => e.states
  | .repeated e min max => max.getD (Nat.max min 1) * e.states
  | .sequence es => statesInTurn es
  | .choice es => mostStates es

def statesInTurn : List Expr → Nat
  | [] => 0
  | e :: rest => e.states + statesInTurn rest

def mostStates : List Expr → Nat
  | [] => 0
  | e :: rest => max e.states (mostStates rest)
end

namespace Look

def before? (text : Array Char) (p : Nat) : Option Char := if p = 0 then none else text[p - 1]?

def holds (text : Array Char) (p : Nat) : Look → Bool
  | .textStart => p == 0
  | .textEnd => p == text.size
  | .lineStart => p == 0 || before? text p == some '\n'
  | .lineEnd => p == text.size || text[p]? == some '\n'
  | .crlfLineStart =>
    p == 0 || before? text p == some '\n' ||
      (before? text p == some '\r' && text[p]? != some '\n')
  | .crlfLineEnd =>
    p == text.size || text[p]? == some '\r' ||
      (text[p]? == some '\n' && before? text p != some '\r')
  | .wordBoundary s => (before? text p).any s.contains != text[p]?.any s.contains
  | .noWordBoundary s => (before? text p).any s.contains == text[p]?.any s.contains
  | .wordStart s => !(before? text p).any s.contains && text[p]?.any s.contains
  | .wordEnd s => (before? text p).any s.contains && !text[p]?.any s.contains
  | .notAfterWord s => !(before? text p).any s.contains
  | .notBeforeWord s => !text[p]?.any s.contains

end Look

/-- Positions without repetitions. -/
def addNew (known fresh : List Nat) : List Nat :=
  fresh.foldl (fun ps p => if ps.contains p then ps else ps ++ [p]) known

/-- `n` steps, or fewer if nothing is left. -/
def iterate (step : List Nat → List Nat) : Nat → List Nat → List Nat
  | 0, ps => ps
  | n + 1, ps => if ps.isEmpty then [] else iterate step n (step ps)

/-- All that at most `n` steps reach.  A step that reaches nothing new is the last. -/
def closure (step : List Nat → List Nat) : Nat → List Nat → List Nat → List Nat
  | 0, known, _ => known
  | n + 1, known, last =>
    let fresh := (addNew [] (step last)).filter (fun p => !known.contains p)
    if fresh.isEmpty then known else closure step n (known ++ fresh) fresh

mutual
/-- Where the expression can end if it begins at one of the given positions. -/
def Expr.ends (text : Array Char) : Expr → List Nat → List Nat
  | .empty, ps => ps
  | .oneOf s _, ps => (ps.filter fun p => text[p]?.any s.contains).map (· + 1)
  | .look l, ps => ps.filter fun p => l.holds text p
  | .group e, ps => e.ends text ps
  | .repeated e min max, ps =>
    let start := iterate (e.ends text) min ps
    let more := match max with
      | none => text.size + 1
      | some m => m - min
    closure (e.ends text) more start start
  | .sequence es, ps => endsInTurn text es ps
  | .choice es, ps => addNew [] (endsOfAny text es ps)

def endsInTurn (text : Array Char) : List Expr → List Nat → List Nat
  | [], ps => ps
  | e :: rest, ps => endsInTurn text rest (e.ends text ps)

def endsOfAny (text : Array Char) : List Expr → List Nat → List Nat
  | [], _ => []
  | e :: rest, ps => e.ends text ps ++ endsOfAny text rest ps
end

def Expr.occursIn (e : Expr) (text : List Char) : Bool :=
  let text := text.toArray
  !(e.ends text (List.range (text.size + 1))).isEmpty

end Pattern
end TaskGen
