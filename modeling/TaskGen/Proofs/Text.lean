import Mathlib.Data.List.TakeWhile
import TaskGen.Text.Blank
import TaskGen.Text.Line

/-!
What the lines of a text are, and what is left of a text without the blanks at its ends, both
said by how the text is put together.

Main statements: `lined_iff`, `trimmed_iff`.
-/

namespace TaskGen
namespace Text

/-! ### Lines -/

/-- The text is made of these lines.  Each one has no line feed and ends at one, which may have a
carriage return in front of it.  The last one may also end with the text, if it is not empty. -/
inductive Lined : List Char → List (List Char) → Prop where
  | nil : Lined [] []
  | last {line : List Char} (some : line ≠ []) (whole : '\n' ∉ line) : Lined line [line]
  | feed {line rest : List Char} {more : List (List Char)} (whole : '\n' ∉ line)
      (bare : line.getLast? ≠ some '\r') (lined : Lined rest more) :
      Lined (line ++ '\n' :: rest) (line :: more)
  | returned {line rest : List Char} {more : List (List Char)} (whole : '\n' ∉ line)
      (lined : Lined rest more) : Lined (line ++ '\r' :: '\n' :: rest) (line :: more)

section
variable {c : Char} {line rest : List Char}

/-- A character that ends no line is in front of the first line of the rest. -/
theorem lines_cons {first : List Char} {more : List (List Char)} (feed : c ≠ '\n')
    (bare : c = '\r' → rest.head? ≠ some '\n') (h : lines rest = first :: more) :
    lines (c :: rest) = (c :: first) :: more := by
  rw [lines]
  · rw [h]
  · intro tail hc hrest
    exact bare hc (by rw [hrest]; rfl)
  · exact feed

theorem lines_of_whole (some : line ≠ []) (whole : '\n' ∉ line) : lines line = [line] := by
  induction line with
  | nil => exact absurd rfl some
  | cons c line ih =>
    have hc : c ≠ '\n' := fun h => whole (h ▸ List.mem_cons_self)
    have hline : '\n' ∉ line := fun h => whole (List.mem_cons_of_mem _ h)
    cases line with
    | nil =>
      rw [lines]
      · rfl
      · intro tail _ hrest
        cases hrest
      · exact hc
    | cons d line =>
      apply lines_cons hc
      · intro _ hd
        apply hline
        rw [Option.some.inj hd]
        exact List.mem_cons_self
      · exact ih (List.cons_ne_nil _ _) hline

theorem lines_append_feed (whole : '\n' ∉ line) (bare : line.getLast? ≠ some '\r')
    (rest : List Char) : lines (line ++ '\n' :: rest) = line :: lines rest := by
  induction line with
  | nil => rfl
  | cons c line ih =>
    have hc : c ≠ '\n' := fun h => whole (h ▸ List.mem_cons_self)
    have hline : '\n' ∉ line := fun h => whole (List.mem_cons_of_mem _ h)
    cases line with
    | nil =>
      apply lines_cons hc
      · intro hreturn
        exact absurd (congrArg some hreturn) bare
      · rfl
    | cons d line =>
      apply lines_cons hc
      · intro _ hd
        apply hline
        rw [Option.some.inj hd]
        exact List.mem_cons_self
      · exact ih hline (by simpa using bare)

theorem lines_append_return (whole : '\n' ∉ line) (rest : List Char) :
    lines (line ++ '\r' :: '\n' :: rest) = line :: lines rest := by
  induction line with
  | nil => rfl
  | cons c line ih =>
    have hc : c ≠ '\n' := fun h => whole (h ▸ List.mem_cons_self)
    have hline : '\n' ∉ line := fun h => whole (List.mem_cons_of_mem _ h)
    apply lines_cons hc
    · intro _ hhead
      cases line with
      | nil => exact absurd (Option.some.inj hhead) (by decide)
      | cons d line =>
        apply hline
        rw [Option.some.inj hhead]
        exact List.mem_cons_self
    · exact ih hline

end

/-- Every text is made of lines. -/
theorem lined_lines (s : List Char) : Lined s (lines s) := by
  -- By the length, as a line is taken from the front of the text in one piece.
  induction hlength : s.length using Nat.strongRecOn generalizing s with
  | _ n ih =>
    by_cases hfeed : '\n' ∈ s
    · obtain ⟨line, rest, rfl, hwhole⟩ := List.eq_append_cons_of_mem hfeed
      have hrest := ih rest.length (by simp at hlength; omega) rest rfl
      by_cases hreturn : line.getLast? = some '\r'
      · obtain ⟨front, rfl⟩ := List.getLast?_eq_some_iff.1 hreturn
        have hfront : '\n' ∉ front := fun h => hwhole (List.mem_append_left _ h)
        rw [List.append_assoc, List.singleton_append, lines_append_return hfront]
        exact .returned hfront hrest
      · rw [lines_append_feed hwhole hreturn]
        exact .feed hwhole hreturn hrest
    · cases s with
      | nil => exact .nil
      | cons c s =>
        rw [lines_of_whole (List.cons_ne_nil _ _) hfeed]
        exact .last (List.cons_ne_nil _ _) hfeed

theorem lined_iff {s : List Char} {ls : List (List Char)} : Lined s ls ↔ lines s = ls := by
  constructor
  · intro h
    induction h with
    | nil => rfl
    | last some whole => exact lines_of_whole some whole
    | feed whole bare _ ih => rw [lines_append_feed whole bare, ih]
    | returned whole _ ih => rw [lines_append_return whole, ih]
  · intro h
    rw [← h]
    exact lined_lines s

/-! ### Blanks -/

def Blank (s : List Char) : Prop := ∀ c ∈ s, isBlank c = true

instance : DecidablePred Blank := fun s => inferInstanceAs (Decidable (∀ c ∈ s, isBlank c = true))

structure Edged (s : List Char) : Prop where
  head : ∀ c ∈ s.head?, isBlank c = false
  last : ∀ c ∈ s.getLast?, isBlank c = false

/-- The second text is what is left of the first one without the blanks at its ends. -/
structure Trimmed (s t : List Char) : Prop where
  whole : ∃ front back, s = front ++ (t ++ back) ∧ Blank front ∧ Blank back
  edged : Edged t

variable {s t front back : List Char}

theorem blank_nil : Blank [] := List.forall_mem_nil _

theorem blank_append : Blank (s ++ t) ↔ Blank s ∧ Blank t := List.forall_mem_append

theorem trimLeft_of_blank (h : Blank s) : trimLeft s = [] := List.dropWhile_eq_nil_iff.2 h

theorem trimLeft_append (blank : Blank front) (s : List Char) :
    trimLeft (front ++ s) = trimLeft s := by
  rw [trimLeft, List.dropWhile_append_of_pos blank]
  rfl

theorem trimLeft_of_head (h : ∀ c ∈ s.head?, isBlank c = false) : trimLeft s = s := by
  cases s with
  | nil => rfl
  | cons c s =>
    have hc : isBlank c = false := h c rfl
    rw [trimLeft, List.dropWhile_cons_of_neg (by simp [hc])]

theorem Trimmed.trim_eq (h : Trimmed s t) : trim s = t := by
  obtain ⟨front, back, rfl, hfront, hback⟩ := h.whole
  have hreverse : Blank back.reverse := fun c hc => hback c (List.mem_reverse.1 hc)
  cases t with
  | nil =>
    rw [trim, trimLeft_append hfront, List.nil_append, trimLeft_of_blank hback]
    rfl
  | cons c t =>
    have hhead : ∀ d ∈ (c :: t ++ back).head?, isBlank d = false := h.edged.head
    have hlast : ∀ d ∈ (c :: t).reverse.head?, isBlank d = false := by
      rw [List.head?_reverse]
      exact h.edged.last
    rw [trim, trimLeft_append hfront, trimLeft_of_head hhead, List.reverse_append,
      trimLeft_append hreverse, trimLeft_of_head hlast, List.reverse_reverse]

theorem trimLeft_head (s : List Char) : ∀ c ∈ (trimLeft s).head?, isBlank c = false := by
  intro c hc
  have hnot := List.head?_dropWhile_not isBlank s
  rw [Option.mem_def, trimLeft] at hc
  rw [hc] at hnot
  exact hnot

theorem exists_trimLeft (s : List Char) : ∃ front, s = front ++ trimLeft s ∧ Blank front := by
  refine ⟨s.takeWhile isBlank, List.takeWhile_append_dropWhile.symm, ?_⟩
  intro c hc
  exact List.all_eq_true.1 List.all_takeWhile c hc

theorem trimmed_trim (s : List Char) : Trimmed s (trim s) := by
  obtain ⟨front, hs, hfront⟩ := exists_trimLeft s
  obtain ⟨back, hback, hblank⟩ := exists_trimLeft (trimLeft s).reverse
  have hleft : trimLeft s = trim s ++ back.reverse := by
    have hreverse := congrArg List.reverse hback
    rw [List.reverse_reverse, List.reverse_append] at hreverse
    exact hreverse
  refine ⟨⟨front, back.reverse, ?_, hfront, ?_⟩, ?_, ?_⟩
  · rw [← hleft]
    exact hs
  · intro c hc
    exact hblank c (List.mem_reverse.1 hc)
  · -- The first character that is left is also the first one behind the blanks in front.
    intro c hc
    apply trimLeft_head s c
    rw [hleft, List.head?_append, Option.mem_def.1 hc]
    rfl
  · intro c hc
    rw [trim, List.getLast?_reverse] at hc
    exact trimLeft_head _ c hc

theorem trimmed_iff : Trimmed s t ↔ trim s = t := by
  constructor
  · exact Trimmed.trim_eq
  · intro h
    rw [← h]
    exact trimmed_trim s

theorem trim_of_edged (h : Edged s) : trim s = s := by
  apply Trimmed.trim_eq
  exact ⟨⟨[], [], by simp, blank_nil, blank_nil⟩, h⟩

theorem trim_eq_nil_iff : trim s = [] ↔ Blank s := by
  rw [← trimmed_iff]
  constructor
  · intro h
    obtain ⟨front, back, rfl, hfront, hback⟩ := h.whole
    exact blank_append.2 ⟨hfront, hback⟩
  · intro h
    exact ⟨⟨s, [], by simp, h, blank_nil⟩, by simp, by simp⟩

/-- Further blanks at the ends make no difference. -/
theorem trim_surrounded (hfront : Blank front) (hback : Blank back) (s : List Char) :
    trim (front ++ (s ++ back)) = trim s := by
  obtain ⟨before, after, hs, hbefore, hafter⟩ := (trimmed_trim s).whole
  apply Trimmed.trim_eq
  refine ⟨⟨front ++ before, after ++ back, ?_, ?_, ?_⟩, (trimmed_trim s).edged⟩
  · rw [List.append_assoc, ← List.append_assoc (trim s), ← List.append_assoc before, ← hs]
  · exact blank_append.2 ⟨hfront, hbefore⟩
  · exact blank_append.2 ⟨hafter, hback⟩

end Text
end TaskGen
