import Mathlib.Data.List.Induction
import Mathlib.Data.List.Perm.Basic
import TaskGen.Fragment.Listing
import TaskGen.Proofs.Dict
import TaskGen.Proofs.Text

/-!
The listing of the fragments: which texts are listings, what a listing says, and which line is
reported of a text that is none.  The lines of a text, and what is left of one between blanks,
are those of `Text.Lined` and `Text.Trimmed`.

Main statement: `parse_grammar`.
-/

namespace TaskGen
namespace Listing

open Text

variable {line front back : List Char}

/-! ### The first separator -/

structure Parted (line front back : List Char) : Prop where
  whole : line = front ++ ':' :: '=' :: back
  first : ∀ front' back', line = front' ++ ':' :: '=' :: back' → front.length ≤ front'.length

def Uncut (line : List Char) : Prop := ∀ front back, line ≠ front ++ ':' :: '=' :: back

theorem splitLine?_cons {c : Char} {rest : List Char} (h : c = ':' → rest.head? ≠ some '=') :
    splitLine? (c :: rest) = (splitLine? rest).map fun p => (c :: p.1, p.2) := by
  apply splitLine?.eq_3
  intro tail hc hrest
  apply h hc
  rw [hrest]
  rfl

theorem parted_of_splitLine? (h : splitLine? line = some (front, back)) :
    Parted line front back := by
  induction line using splitLine?.induct generalizing front with
  | case1 => simp [splitLine?] at h
  | case2 rest =>
    have hparts := Option.some.inj h
    simp only [Prod.mk.injEq] at hparts
    obtain ⟨rfl, rfl⟩ := hparts
    exact ⟨rfl, fun front' back' _ => Nat.zero_le _⟩
  | case3 c rest hcut ih =>
    rw [splitLine?.eq_3 c rest hcut, Option.map_eq_some_iff] at h
    obtain ⟨⟨front, tail⟩, hrest, hparts⟩ := h
    simp only [Prod.mk.injEq] at hparts
    obtain ⟨rfl, rfl⟩ := hparts
    have hparted := ih hrest
    constructor
    · rw [hparted.whole]
      rfl
    · intro front' back' hline
      cases front' with
      | nil =>
        -- A separator at the front is the case above.
        simp only [List.nil_append, List.cons.injEq] at hline
        exact (hcut back' hline.1 hline.2).elim
      | cons d front' =>
        simp only [List.cons_append, List.cons.injEq] at hline
        exact Nat.succ_le_succ (hparted.first front' back' hline.2)

theorem uncut_of_splitLine? (h : splitLine? line = none) : Uncut line := by
  induction line using splitLine?.induct with
  | case1 =>
    intro front back hline
    simp at hline
  | case2 rest => simp [splitLine?] at h
  | case3 c rest hcut ih =>
    rw [splitLine?.eq_3 c rest hcut, Option.map_eq_none_iff] at h
    intro front back hline
    cases front with
    | nil =>
      simp only [List.nil_append, List.cons.injEq] at hline
      exact hcut back hline.1 hline.2
    | cons d front =>
      simp only [List.cons_append, List.cons.injEq] at hline
      exact ih h front back hline.2

/-- There is at most one way to cut a line at its first separator. -/
theorem Parted.unique {front' back' : List Char} (h : Parted line front back)
    (h' : Parted line front' back') : front = front' ∧ back = back' := by
  have hlength : front.length = front'.length :=
    Nat.le_antisymm (h.first _ _ h'.whole) (h'.first _ _ h.whole)
  have hparts := List.append_inj (h.whole.symm.trans h'.whole) hlength
  simp only [List.cons.injEq, true_and] at hparts
  exact hparts

theorem parted_iff : Parted line front back ↔ splitLine? line = some (front, back) := by
  constructor
  · intro h
    cases hsplit : splitLine? line with
    | none => exact (uncut_of_splitLine? hsplit front back h.whole).elim
    | some p =>
      have hparted : Parted line p.1 p.2 := parted_of_splitLine? hsplit
      obtain ⟨hfront, hback⟩ := h.unique hparted
      rw [hfront, hback]
  · exact parted_of_splitLine?

theorem uncut_iff : Uncut line ↔ splitLine? line = none := by
  constructor
  · intro h
    rw [Option.eq_none_iff_forall_ne_some]
    intro p hsplit
    have hparted : Parted line p.1 p.2 := parted_of_splitLine? hsplit
    exact h p.1 p.2 hparted.whole
  · exact uncut_of_splitLine?

/-! ### A line between blanks -/

theorem splitLine?_append_left (blank : Blank front) (line : List Char) :
    splitLine? (front ++ line) = (splitLine? line).map fun p => (front ++ p.1, p.2) := by
  induction front with
  | nil => simp
  | cons c front ih =>
    have hc : c ≠ ':' := by
      rintro rfl
      exact absurd (blank ':' List.mem_cons_self) (by decide)
    have hrest := ih fun d hd => blank d (List.mem_cons_of_mem _ hd)
    rw [List.cons_append, splitLine?_cons (fun h => (hc h).elim), hrest, Option.map_map]
    rfl

theorem splitLine?_append_right (blank : Blank back) (line : List Char) :
    splitLine? (line ++ back) = (splitLine? line).map fun p => (p.1, p.2 ++ back) := by
  induction line using splitLine?.induct with
  | case1 =>
    have hback := splitLine?_append_left blank []
    rw [List.append_nil] at hback
    exact hback
  | case2 rest => rfl
  | case3 c rest hcut ih =>
    have hstart : c = ':' → (rest ++ back).head? ≠ some '=' := by
      intro hc hhead
      cases rest with
      | nil => exact absurd (blank '=' (List.mem_of_mem_head? hhead)) (by decide)
      | cons d rest =>
        rw [Option.some.inj hhead] at hcut
        exact hcut rest hc rfl
    rw [List.cons_append, splitLine?_cons hstart, ih, splitLine?.eq_3 c rest hcut, Option.map_map,
      Option.map_map]
    rfl

/-- The first separator of a line, found between its blanks. -/
theorem exists_splitLine?_trim (line : List Char) :
    ∃ before after, Blank before ∧ Blank after ∧
      splitLine? line =
        (splitLine? (trim line)).map fun p => (before ++ p.1, p.2 ++ after) := by
  obtain ⟨before, after, hline, hbefore, hafter⟩ := (trimmed_trim line).whole
  refine ⟨before, after, hbefore, hafter, ?_⟩
  rw [congrArg splitLine? hline, splitLine?_append_left hbefore, splitLine?_append_right hafter,
    Option.map_map]
  rfl

/-! ### One line -/

/-- The line has text on both sides of its first separator.  Without the blanks around them, these
are the identifier and the path. -/
structure Entry (line : List Char) (id file : String) : Prop where
  parted : ∃ front back, Parted line front back ∧ Trimmed front id.toList ∧
    Trimmed back file.toList
  named : id ≠ ""
  located : file ≠ ""

/-- The line, which is not blank, has no separator or lacks text at one side of the first. -/
inductive Misread (line : List Char) : Fault → Prop where
  | noSeparator {text : String} (uncut : Uncut line) (trimmed : Trimmed line text.toList) :
      Misread line (.noSeparator text)
  | emptyPart {front back : List Char} (parted : Parted line front back)
      (lacks : Blank front ∨ Blank back) : Misread line .emptyPart

theorem readLine_of_uncut (h : Uncut line) :
    readLine (trim line) = .error (.noSeparator (String.ofList (trim line))) := by
  obtain ⟨before, after, -, -, hsplit⟩ := exists_splitLine?_trim line
  rw [uncut_iff.1 h, eq_comm, Option.map_eq_none_iff] at hsplit
  rw [readLine, hsplit]

/-- What is read of a line with a separator is told by the two sides of the first one. -/
theorem readLine_of_parted (h : Parted line front back) :
    readLine (trim line) =
      if (trim front).isEmpty || (trim back).isEmpty then .error .emptyPart
      else .ok (String.ofList (trim front), String.ofList (trim back)) := by
  obtain ⟨before, after, hbefore, hafter, hsplit⟩ := exists_splitLine?_trim line
  rw [parted_iff.1 h, eq_comm, Option.map_eq_some_iff] at hsplit
  obtain ⟨⟨left, right⟩, hinner, hparts⟩ := hsplit
  simp only [Prod.mk.injEq] at hparts
  have hfront : trim front = trim left := by
    rw [← hparts.1]
    simpa using trim_surrounded hbefore blank_nil left
  have hback : trim back = trim right := by
    rw [← hparts.2]
    simpa using trim_surrounded blank_nil hafter right
  rw [readLine, hinner, hfront, hback]

theorem Entry.readLine {id file : String} (h : Entry line id file) :
    readLine (trim line) = .ok (id, file) := by
  obtain ⟨front, back, hparted, hfront, hback⟩ := h.parted
  rw [readLine_of_parted hparted, hfront.trim_eq, hback.trim_eq]
  simp [h.named, h.located]

theorem Entry.not_blank {id file : String} (h : Entry line id file) : ¬ Blank line := by
  obtain ⟨front, back, hparted, -, -⟩ := h.parted
  intro hblank
  have hcolon : ':' ∈ line := by
    rw [hparted.whole]
    simp
  exact absurd (hblank ':' hcolon) (by decide)

theorem Entry.unique {id file id' file' : String} (h : Entry line id file)
    (h' : Entry line id' file') : id = id' ∧ file = file' := by
  have heq := h.readLine.symm.trans h'.readLine
  simpa using heq

theorem Misread.readLine {fault : Fault} (h : Misread line fault) :
    readLine (trim line) = .error fault := by
  cases h with
  | noSeparator uncut trimmed =>
    rw [readLine_of_uncut uncut, trimmed.trim_eq, String.ofList_toList]
  | emptyPart parted lacks =>
    rw [readLine_of_parted parted]
    apply if_pos
    simpa [trim_eq_nil_iff] using lacks

/-- Every line is an entry, or something is wrong with it. -/
theorem entry_or_misread (line : List Char) :
    (∃ id file, Entry line id file) ∨ ∃ fault, Misread line fault := by
  cases hsplit : splitLine? line with
  | none =>
    refine .inr ⟨.noSeparator (String.ofList (trim line)), ?_⟩
    apply Misread.noSeparator (uncut_iff.2 hsplit)
    rw [String.toList_ofList]
    exact trimmed_trim line
  | some p =>
    have hparted : Parted line p.1 p.2 := parted_iff.2 hsplit
    by_cases hlacks : Blank p.1 ∨ Blank p.2
    · exact .inr ⟨.emptyPart, .emptyPart hparted hlacks⟩
    · rw [not_or] at hlacks
      refine .inl ⟨String.ofList (trim p.1), String.ofList (trim p.2), ?_, ?_, ?_⟩
      · refine ⟨p.1, p.2, hparted, ?_, ?_⟩
        · rw [String.toList_ofList]
          exact trimmed_trim p.1
        · rw [String.toList_ofList]
          exact trimmed_trim p.2
      · simpa [trim_eq_nil_iff] using hlacks.1
      · simpa [trim_eq_nil_iff] using hlacks.2

/-! ### A whole listing -/

structure Accepted (ls : List (List Char)) : Prop where
  read : ∀ line ∈ ls, Blank line ∨ ∃ id file, Entry line id file
  distinct : ls.Pairwise fun line other => ∀ id file file',
    Entry line id file → ¬ Entry other id file'

inductive Offence (before : List (List Char)) (line : List Char) : Fault → Prop where
  | misread {fault : Fault} (some : ¬ Blank line) (misread : Misread line fault) :
      Offence before line fault
  | repeated {id file : String} (entry : Entry line id file)
      (known : ∃ other ∈ before, ∃ file', Entry other id file') :
      Offence before line (.repeated id)

structure Content (base : Path) (ls : List (List Char)) (set : FragmentSet) : Prop where
  ordered : Dict.Ordered set
  find?_iff : ∀ id p, Dict.find? set id = some p ↔
    ∃ line ∈ ls, ∃ file, Entry line id file ∧ p = base.join file

variable {base : Path} {before ls : List (List Char)} {set : FragmentSet}

theorem Content.contains_iff (h : Content base before set) {id : String} :
    Dict.contains set id = true ↔ ∃ other ∈ before, ∃ file, Entry other id file := by
  rw [Dict.contains, Option.isSome_iff_exists]
  constructor
  · rintro ⟨p, hp⟩
    obtain ⟨other, hother, file, hentry, -⟩ := (h.find?_iff id p).1 hp
    exact ⟨other, hother, file, hentry⟩
  · rintro ⟨other, hother, file, hentry⟩
    exact ⟨base.join file, (h.find?_iff id _).2 ⟨other, hother, file, hentry, rfl⟩⟩

theorem content_nil (base : Path) : Content base [] [] := ⟨Dict.Ordered.nil, by simp⟩

theorem Content.blank (h : Content base before set) (blank : Blank line) :
    Content base (before ++ [line]) set := by
  refine ⟨h.ordered, fun id p => ?_⟩
  rw [h.find?_iff id p]
  constructor
  · rintro ⟨other, hother, hrest⟩
    exact ⟨other, List.mem_append_left _ hother, hrest⟩
  · rintro ⟨other, hother, file, hentry, hp⟩
    rcases List.mem_append.1 hother with hother | hother
    · exact ⟨other, hother, file, hentry, hp⟩
    · rw [List.mem_singleton.1 hother] at hentry
      exact (hentry.not_blank blank).elim

theorem Content.insert (h : Content base before set) {id file : String} (entry : Entry line id file)
    (new : ∀ other ∈ before, ∀ file', ¬ Entry other id file') :
    Content base (before ++ [line]) (Dict.insert set id (base.join file)) := by
  refine ⟨h.ordered.insert _ _, fun id' p => ?_⟩
  rw [Dict.find?_insert]
  constructor
  · intro hp
    by_cases hid : id = id'
    · rw [if_pos hid] at hp
      refine ⟨line, List.mem_append_right _ List.mem_cons_self, file, ?_, ?_⟩
      · rw [← hid]
        exact entry
      · exact (Option.some.inj hp).symm
    · rw [if_neg hid] at hp
      obtain ⟨other, hother, hrest⟩ := (h.find?_iff id' p).1 hp
      exact ⟨other, List.mem_append_left _ hother, hrest⟩
  · rintro ⟨other, hother, file', hentry, rfl⟩
    rcases List.mem_append.1 hother with hother | hother
    · have hid : id ≠ id' := by
        rintro rfl
        exact new other hother file' hentry
      rw [if_neg hid]
      exact (h.find?_iff id' _).2 ⟨other, hother, file', hentry, rfl⟩
    · rw [List.mem_singleton.1 hother] at hentry
      obtain ⟨hid, hfile⟩ := entry.unique hentry
      rw [if_pos hid, hfile]

/-! ### One line more -/

variable {number : Nat} {rest : List (List Char)}

theorem readLines_blank (blank : Blank line) :
    readLines base number (line :: rest) set = readLines base (number + 1) rest set := by
  rw [readLines]
  apply if_pos
  rw [trim_eq_nil_iff.2 blank]
  rfl

theorem isEmpty_trim (some : ¬ Blank line) : (trim line).isEmpty = false := by
  rw [← Bool.not_eq_true, List.isEmpty_iff, trim_eq_nil_iff]
  exact some

theorem readLines_insert (content : Content base before set) {id file : String}
    (entry : Entry line id file) (new : ∀ other ∈ before, ∀ file', ¬ Entry other id file') :
    readLines base number (line :: rest) set =
      readLines base (number + 1) rest (Dict.insert set id (base.join file)) := by
  have hnew : Dict.contains set id = false := by
    rw [← Bool.not_eq_true, content.contains_iff]
    rintro ⟨other, hother, file', hentry⟩
    exact new other hother file' hentry
  rw [readLines]
  simp only [isEmpty_trim entry.not_blank, Bool.false_eq_true, if_false, entry.readLine, hnew]

/-- The number that is reported is the one of the first line with a fault. -/
theorem readLines_offence (content : Content base before set) {fault : Fault}
    (offence : Offence before line fault) :
    readLines base number (line :: rest) set = .error ⟨number, fault⟩ := by
  rw [readLines]
  cases offence with
  | misread some misread =>
    simp only [isEmpty_trim some, Bool.false_eq_true, if_false, misread.readLine]
  | repeated entry known =>
    simp only [isEmpty_trim entry.not_blank, Bool.false_eq_true, if_false, entry.readLine,
      content.contains_iff.2 known, if_true]

/-! ### All lines -/

theorem Accepted.of_append (h : Accepted (before ++ ls)) : Accepted before where
  read line hline := h.read line (List.mem_append_left _ hline)
  distinct := (List.pairwise_append.1 h.distinct).1

theorem accepted_concat (h : Accepted before)
    (hline : Blank line ∨ ∃ id file, Entry line id file ∧
      ∀ other ∈ before, ∀ file', ¬ Entry other id file') : Accepted (before ++ [line]) := by
  constructor
  · intro other hother
    rcases List.mem_append.1 hother with hother | hother
    · exact h.read other hother
    · rw [List.mem_singleton.1 hother]
      exact hline.imp_right fun ⟨id, file, hentry, _⟩ => ⟨id, file, hentry⟩
  · refine List.pairwise_append.2 ⟨h.distinct, List.pairwise_singleton _ _, ?_⟩
    intro other hother last hlast id file file' hentry hentry'
    rw [List.mem_singleton.1 hlast] at hentry'
    rcases hline with hblank | ⟨id', file'', hentry'', hnew⟩
    · exact hentry'.not_blank hblank
    · rw [(hentry'.unique hentry'').1] at hentry
      exact hnew other hother file hentry

/-- Either all lines are accepted, or there is a first one with a fault. -/
theorem accepted_or_offence (ls : List (List Char)) :
    Accepted ls ∨ ∃ before line after fault, ls = before ++ line :: after ∧ Accepted before ∧
      Offence before line fault := by
  induction ls using List.reverseRec with
  | nil => exact .inl ⟨by simp, List.Pairwise.nil⟩
  | append_singleton ls line ih =>
    rcases ih with haccepted | ⟨before, bad, after, fault, hls, hbefore, hoffence⟩
    · by_cases hblank : Blank line
      · exact .inl (accepted_concat haccepted (.inl hblank))
      · rcases entry_or_misread line with ⟨id, file, hentry⟩ | ⟨fault, hmisread⟩
        · by_cases hknown : ∃ other ∈ ls, ∃ file', Entry other id file'
          · exact .inr ⟨ls, line, [], _, rfl, haccepted, .repeated hentry hknown⟩
          · refine .inl (accepted_concat haccepted (.inr ⟨id, file, hentry, ?_⟩))
            intro other hother file' hentry'
            exact hknown ⟨other, hother, file', hentry'⟩
        · exact .inr ⟨ls, line, [], fault, rfl, haccepted, .misread hblank hmisread⟩
    · refine .inr ⟨before, bad, after ++ [line], fault, ?_, hbefore, hoffence⟩
      rw [hls, List.append_assoc]
      rfl

/-- Accepted lines are read one after another, whatever follows them. -/
theorem readLines_append (number : Nat) (content : Content base before set)
    (accepted : Accepted (before ++ ls)) :
    ∃ set', Content base (before ++ ls) set' ∧ ∀ rest, readLines base number (ls ++ rest) set =
      readLines base (number + ls.length) rest set' := by
  induction ls generalizing before set number with
  | nil =>
    rw [List.append_nil]
    exact ⟨set, content, fun rest => rfl⟩
  | cons line ls ih =>
    have hsplit : before ++ line :: ls = before ++ [line] ++ ls := by simp
    rw [hsplit] at accepted ⊢
    have hnumber : number + (line :: ls).length = number + 1 + ls.length := by
      rw [List.length_cons]
      omega
    have hline : line ∈ before ++ [line] ++ ls := by simp
    rcases accepted.read line hline with hblank | ⟨id, file, hentry⟩
    · obtain ⟨set', hset, hread⟩ := ih (number + 1) (content.blank hblank) accepted
      refine ⟨set', hset, fun rest => ?_⟩
      rw [List.cons_append, readLines_blank hblank, hread, hnumber]
    · have hnew : ∀ other ∈ before, ∀ file', ¬ Entry other id file' := by
        intro other hother file' hentry'
        have hdistinct := (List.pairwise_append.1 accepted.of_append.distinct).2.2
        exact hdistinct other hother line List.mem_cons_self id file' file hentry' hentry
      obtain ⟨set', hset, hread⟩ :=
        ih (number + 1) (content.insert hentry hnew) accepted
      refine ⟨set', hset, fun rest => ?_⟩
      rw [List.cons_append, readLines_insert content hentry hnew, hread, hnumber]

variable {text : String}

theorem parse_of_accepted (base : Path) (lined : Lined text.toList ls) (accepted : Accepted ls) :
    ∃ set, parse text base = .ok set ∧ Content base ls set := by
  obtain ⟨set, hset, hread⟩ := readLines_append 1 (content_nil base) accepted
  refine ⟨set, ?_, hset⟩
  have hall := hread []
  rw [List.append_nil] at hall
  rw [parse, lined_iff.1 lined, hall, readLines]

theorem parse_of_offence {after : List (List Char)} {fault : Fault}
    (lined : Lined text.toList (before ++ line :: after)) (accepted : Accepted before)
    (offence : Offence before line fault) :
    parse text base = .error ⟨before.length + 1, fault⟩ := by
  obtain ⟨set, hset, hread⟩ := readLines_append 1 (content_nil base) accepted
  rw [parse, lined_iff.1 lined, hread, readLines_offence hset offence, Nat.add_comm]

/-! ### Order and blank lines -/

def Rearranged (ls ls' : List (List Char)) : Prop :=
  (ls.filter fun line => ¬ Blank line).Perm (ls'.filter fun line => ¬ Blank line)

variable {ls' : List (List Char)}

theorem Rearranged.symm (h : Rearranged ls ls') : Rearranged ls' ls := List.Perm.symm h

theorem Rearranged.mem (h : Rearranged ls ls') (hmem : line ∈ ls) (hblank : ¬ Blank line) :
    line ∈ ls' := by
  have hkept : line ∈ ls.filter fun line => ¬ Blank line :=
    List.mem_filter.2 ⟨hmem, by simpa using hblank⟩
  exact (List.mem_filter.1 ((List.Perm.mem_iff h).1 hkept)).1

theorem Accepted.rearranged (h : Accepted ls) (same : Rearranged ls ls') : Accepted ls' where
  read line hline := by
    by_cases hblank : Blank line
    · exact .inl hblank
    · exact h.read line (same.symm.mem hline hblank)
  distinct := by
    have hsymm : ∀ {line other : List Char},
        (∀ id file file', Entry line id file → ¬ Entry other id file') →
          ∀ id file file', Entry other id file → ¬ Entry line id file' := by
      intro line other hapart id file file' hother hline
      exact hapart id file' file hline hother
    have hkept := (List.Perm.pairwise_iff hsymm same).1 (h.distinct.filter _)
    -- A line that was left out is blank, so it is no entry.
    apply (List.pairwise_filter.1 hkept).imp
    intro line other hapart id file file' hentry hentry'
    exact hapart (by simpa using hentry.not_blank) (by simpa using hentry'.not_blank) id file file'
      hentry hentry'

theorem Content.rearranged (h : Content base ls set) (same : Rearranged ls ls') :
    Content base ls' set := by
  refine ⟨h.ordered, fun id p => ?_⟩
  rw [h.find?_iff id p]
  constructor
  · rintro ⟨line, hline, file, hentry, hp⟩
    exact ⟨line, same.mem hline hentry.not_blank, file, hentry, hp⟩
  · rintro ⟨line, hline, file, hentry, hp⟩
    exact ⟨line, same.symm.mem hline hentry.not_blank, file, hentry, hp⟩

theorem Content.unique {set' : FragmentSet} (h : Content base ls set)
    (h' : Content base ls set') : set = set' := by
  apply h.ordered.eq_of_find? h'.ordered
  intro id
  apply Option.ext
  intro p
  rw [h.find?_iff, h'.find?_iff]

theorem parse_eq_ok_iff (lined : Lined text.toList ls) :
    parse text base = .ok set ↔ Accepted ls ∧ Content base ls set := by
  constructor
  · intro h
    rcases accepted_or_offence ls with haccepted | ⟨before, line, after, fault, rfl, hbefore, hline⟩
    · obtain ⟨set', hparse, hset'⟩ := parse_of_accepted base lined haccepted
      rw [h] at hparse
      cases hparse
      exact ⟨haccepted, hset'⟩
    · rw [parse_of_offence lined hbefore hline] at h
      cases h
  · rintro ⟨haccepted, hset⟩
    obtain ⟨set', hparse, hset'⟩ := parse_of_accepted base lined haccepted
    rw [hset.unique hset']
    exact hparse

theorem parse_eq_error_iff (lined : Lined text.toList ls) {m : Malformed} :
    parse text base = .error m ↔ ∃ before line after, ls = before ++ line :: after ∧
      m.line = before.length + 1 ∧ Accepted before ∧ Offence before line m.fault := by
  constructor
  · intro h
    rcases accepted_or_offence ls with haccepted | ⟨before, line, after, fault, rfl, hbefore, hline⟩
    · obtain ⟨set, hparse, -⟩ := parse_of_accepted base lined haccepted
      rw [h] at hparse
      cases hparse
    · rw [parse_of_offence lined hbefore hline] at h
      cases h
      exact ⟨before, line, after, rfl, rfl, hbefore, hline⟩
  · rintro ⟨before, line, after, rfl, hnumber, hbefore, hline⟩
    rw [parse_of_offence lined hbefore hline, ← hnumber]

/-! ### Writing a listing -/

def writeLine (p : String × String) : List Char := p.1.toList ++ ':' :: '=' :: p.2.toList

def write (pairs : List (String × String)) : String :=
  String.ofList (pairs.flatMap fun p => writeLine p ++ ['\n'])

structure Writable (p : String × String) : Prop where
  named : p.1 ≠ ""
  located : p.2 ≠ ""
  edged : Edged p.1.toList ∧ Edged p.2.toList
  whole : '\n' ∉ p.1.toList ∧ '\n' ∉ p.2.toList
  uncut : ¬ [':', '='] <:+: p.1.toList

variable {p : String × String} {pairs : List (String × String)}

/-- A colon at the end of the first part does not move the separator. -/
theorem splitLine?_append (h : ¬ [':', '='] <:+: front) (back : List Char) :
    splitLine? (front ++ ':' :: '=' :: back) = some (front, back) := by
  induction front with
  | nil => rfl
  | cons c front ih =>
    have hstart : c = ':' → (front ++ ':' :: '=' :: back).head? ≠ some '=' := by
      rintro rfl hhead
      cases front with
      | nil => exact absurd (Option.some.inj hhead) (by decide)
      | cons d front =>
        apply h
        rw [Option.some.inj hhead]
        exact ⟨[], front, rfl⟩
    have hrest : ¬ [':', '='] <:+: front := fun hin => h (hin.trans (List.suffix_cons c _).isInfix)
    rw [List.cons_append, splitLine?_cons hstart, ih hrest]
    rfl

theorem Writable.entry (h : Writable p) : Entry (writeLine p) p.1 p.2 where
  parted := by
    refine ⟨p.1.toList, p.2.toList, parted_iff.2 (splitLine?_append h.uncut _), ?_, ?_⟩
    · exact trimmed_iff.2 (trim_of_edged h.edged.1)
    · exact trimmed_iff.2 (trim_of_edged h.edged.2)
  named := h.named
  located := h.located

theorem Writable.not_mem (h : Writable p) : '\n' ∉ writeLine p := by
  simp [writeLine, h.whole.1, h.whole.2]

theorem Writable.getLast? (h : Writable p) : (writeLine p).getLast? ≠ some '\r' := by
  have hsome : p.2.toList ≠ [] := by simpa using h.located
  have hline : (writeLine p).getLast? = p.2.toList.getLast? := by
    rw [writeLine, List.getLast?_append_of_ne_nil _ (List.cons_ne_nil _ _),
      List.getLast?_cons_of_ne_nil (List.cons_ne_nil _ _), List.getLast?_cons_of_ne_nil hsome]
  rw [hline]
  intro hlast
  exact absurd (h.edged.2.last '\r' hlast) (by decide)

theorem lined_write (h : ∀ p ∈ pairs, Writable p) :
    Lined (write pairs).toList (pairs.map writeLine) := by
  rw [write, String.toList_ofList]
  induction pairs with
  | nil => exact .nil
  | cons p pairs ih =>
    have hp := h p List.mem_cons_self
    have hrest := ih fun q hq => h q (List.mem_cons_of_mem _ hq)
    rw [List.flatMap_cons, List.append_assoc, List.singleton_append]
    exact .feed hp.not_mem hp.getLast? hrest

theorem accepted_map_writeLine (distinct : (pairs.map Prod.fst).Nodup)
    (h : ∀ p ∈ pairs, Writable p) : Accepted (pairs.map writeLine) := by
  constructor
  · intro line hline
    obtain ⟨p, hp, rfl⟩ := List.mem_map.1 hline
    exact .inr ⟨p.1, p.2, (h p hp).entry⟩
  · rw [List.pairwise_map]
    apply (List.pairwise_map.1 distinct).imp_of_mem
    intro p q hp hq hne id file file' hentry hentry'
    apply hne
    rw [((h p hp).entry.unique hentry).1, ((h q hq).entry.unique hentry').1]

theorem content_map_writeLine (base : Path) (distinct : (pairs.map Prod.fst).Nodup)
    (h : ∀ p ∈ pairs, Writable p) : Content base (pairs.map writeLine)
      (Dict.ofList (pairs.map fun p => (p.1, base.join p.2))) := by
  have hkeys : (Dict.keys (pairs.map fun p => (p.1, base.join p.2))).Nodup := by
    rw [Dict.keys, List.map_map]
    exact distinct
  refine ⟨Dict.ordered_ofList _, fun id p => ?_⟩
  rw [Dict.find?_ofList hkeys]
  constructor
  · intro hfind
    obtain ⟨q, hq, heq⟩ := List.mem_map.1 (Dict.mem_of_find? hfind)
    simp only [Prod.mk.injEq] at heq
    refine ⟨writeLine q, List.mem_map.2 ⟨q, hq, rfl⟩, q.2, ?_, heq.2.symm⟩
    rw [← heq.1]
    exact (h q hq).entry
  · rintro ⟨line, hline, file, hentry, rfl⟩
    obtain ⟨q, hq, rfl⟩ := List.mem_map.1 hline
    obtain ⟨rfl, rfl⟩ := (h q hq).entry.unique hentry
    exact Dict.find?_of_mem hkeys (List.mem_map.2 ⟨q, hq, rfl⟩)

/-! ### The grammar -/

/-- What a listing is, seen from a base directory. -/
structure Grammar (base : Path) : Prop where
  /-- A text is a listing if every line that is not blank is an entry, with an identifier of its
  own. -/
  accepted : ∀ {text : String} {ls : List (List Char)}, Lined text.toList ls →
    ((∃ set, parse text base = .ok set) ↔ Accepted ls)
  /-- It lists exactly the identifiers on its lines, each with the path behind it. -/
  content : ∀ {text : String} {ls : List (List Char)} {set : FragmentSet},
    Lined text.toList ls → parse text base = .ok set → Content base ls set
  /-- The order of the lines and the blank ones make no difference. -/
  independent : ∀ {text text' : String} {ls ls' : List (List Char)} {set : FragmentSet},
    Lined text.toList ls → Lined text'.toList ls' → Rearranged ls ls' →
      (parse text base = .ok set ↔ parse text' base = .ok set)
  /-- Of any other text the first line with a fault is reported, counted from 1 and with the blank
  ones. -/
  refused : ∀ {text : String} {ls : List (List Char)} {m : Malformed}, Lined text.toList ls →
    (parse text base = .error m ↔ ∃ before line after, ls = before ++ line :: after ∧
      m.line = before.length + 1 ∧ Accepted before ∧ Offence before line m.fault)
  /-- Pairs with distinct identifiers are read back from their lines, whichever way these end. -/
  relined : ∀ {pairs : List (String × String)} {text : String}, (pairs.map Prod.fst).Nodup →
    (∀ p ∈ pairs, Writable p) → Lined text.toList (pairs.map writeLine) →
      parse text base = .ok (Dict.ofList (pairs.map fun p => (p.1, base.join p.2)))
  written : ∀ {pairs : List (String × String)}, (pairs.map Prod.fst).Nodup →
    (∀ p ∈ pairs, Writable p) →
      parse (write pairs) base = .ok (Dict.ofList (pairs.map fun p => (p.1, base.join p.2)))

theorem parse_of_written (distinct : (pairs.map Prod.fst).Nodup) (h : ∀ p ∈ pairs, Writable p)
    (lined : Lined text.toList (pairs.map writeLine)) :
    parse text base = .ok (Dict.ofList (pairs.map fun p => (p.1, base.join p.2))) :=
  (parse_eq_ok_iff lined).2
    ⟨accepted_map_writeLine distinct h, content_map_writeLine base distinct h⟩

/-- The listings are exactly the texts of the grammar. -/
theorem parse_grammar (base : Path) : Grammar base where
  accepted lined := by
    constructor
    · rintro ⟨set, hparse⟩
      exact ((parse_eq_ok_iff lined).1 hparse).1
    · intro haccepted
      obtain ⟨set, hparse, -⟩ := parse_of_accepted base lined haccepted
      exact ⟨set, hparse⟩
  content lined hparse := ((parse_eq_ok_iff lined).1 hparse).2
  independent lined lined' same := by
    rw [parse_eq_ok_iff lined, parse_eq_ok_iff lined']
    constructor
    · rintro ⟨haccepted, hset⟩
      exact ⟨haccepted.rearranged same, hset.rearranged same⟩
    · rintro ⟨haccepted, hset⟩
      exact ⟨haccepted.rearranged same.symm, hset.rearranged same.symm⟩
  refused lined := parse_eq_error_iff lined
  relined distinct h lined := parse_of_written distinct h lined
  written distinct h := parse_of_written distinct h (lined_write h)

example (base : Path) : parse "a::=x\r\n\n\t b := c:=d \n" base =
    .ok [("a:", base.join "x"), ("b", base.join "c:=d")] := by rfl

example (base : Path) : parse "a:=x\n \n:= y" base = .error ⟨3, .emptyPart⟩ := by rfl

end Listing
end TaskGen
