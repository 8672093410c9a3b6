import Mathlib.Data.List.Basic
import TaskGen.Pattern.Reader

/-!
Reading a pattern with and without the text that anchors it.  Both readings go along with each
other up to the end of the pattern, unless a comment that is still open there swallows the rest.
A reading that fails without that text can only go on inside of it.

There is one lemma for each reader, up to `tracks_readEscape`, `tracks_readCounts` and
`tracks_readGroupHead`.
-/

namespace TaskGen
namespace Pattern

/-- What stands behind a pattern that is anchored. -/
def ending : List Char := [')', '$']

/-- What is left of a pattern, at most `n` characters, and the same with the ending. -/
inductive Trails (n : Nat) : List Char → List Char → Prop where
  /-- A comment was open. -/
  | swallowed : Trails n [] []
  | done : Trails n [] ending
  | next {c : Char} {rest : List Char} (h : rest.length < n) :
    Trails n (c :: rest) (c :: (rest ++ ending))

/-- The outcomes of a reader without and with the ending.  `P` relates what is read, and `L` tells
what can be read if it is the ending that makes the difference. -/
inductive Tracks {β : Type} (P : β → β → Prop) (L : β → Prop) : Option β → Option β → Prop where
  | read {x y : β} (h : P x y) : Tracks P L (some x) (some y)
  | failed : Tracks P L none none
  | lost {y : β} (h : L y) : Tracks P L none (some y)

def Along {α β : Type} (P : β → β → Prop) (x y : α × β) : Prop := x.1 = y.1 ∧ P x.2 y.2

def Never {β : Type} (_ : β) : Prop := False

variable {E : Engine} {n : Nat} {s s' : List Char}

/-! ### What is left -/

theorem trails_append {s : List Char} (h : s.length ≤ n) : Trails n s (s ++ ending) := by
  cases s with
  | nil => exact .done
  | cons c rest => exact .next h

theorem Trails.mono {k : Nat} (h : Trails n s s') (hk : n ≤ k) : Trails k s s' := by
  cases h with
  | swallowed => exact .swallowed
  | done => exact .done
  | next h => exact .next (Nat.lt_of_lt_of_le h hk)

theorem trails_skipBlanks (s : List Char) (commented : Bool) (h : s.length ≤ n) :
    Trails n (skipBlanks commented s) (skipBlanks commented (s ++ ending)) := by
  induction s generalizing commented with
  | nil =>
    cases commented with
    | true => exact .swallowed
    | false => exact .done
  | cons c rest ih =>
    have hrest := fun b => ih b (Nat.le_of_succ_le h)
    cases commented with
    | true => exact hrest _
    | false =>
      rw [List.cons_append, skipBlanks, skipBlanks]
      split
      · exact hrest false
      · split
        · exact hrest true
        · exact .next h

theorem suffix_skipBlanks (s : List Char) (commented : Bool) : skipBlanks commented s <:+ s := by
  induction s generalizing commented with
  | nil => cases commented <;> exact List.suffix_refl []
  | cons c rest ih =>
    have hrest := fun b => (ih b).trans (List.suffix_cons c rest)
    cases commented with
    | true => exact hrest _
    | false =>
      rw [skipBlanks]
      split
      · exact hrest false
      · split
        · exact hrest true
        · exact List.suffix_refl _

theorem suffix_skip (m : Mode) (s : List Char) : m.skip s <:+ s := by
  unfold Mode.skip
  split
  · exact suffix_skipBlanks s false
  · exact List.suffix_refl s

theorem Trails.skip (m : Mode) (h : Trails n s s') : Trails n (m.skip s) (m.skip s') := by
  unfold Mode.skip
  split
  · cases h with
    | swallowed => exact .swallowed
    | done => exact trails_skipBlanks [] false (Nat.zero_le n)
    | next h => exact trails_skipBlanks (_ :: _) false h
  · exact h

theorem Trails.length_le (h : Trails n s s') : s.length ≤ n := by
  cases h with
  | swallowed => exact Nat.zero_le n
  | done => exact Nat.zero_le n
  | next h => exact h

theorem length_skip_le (m : Mode) (s : List Char) : (m.skip s).length ≤ s.length :=
  (suffix_skip m s).length_le

theorem length_skip_lt (m : Mode) {c : Char} {rest : List Char} {fuel : Nat}
    (h : (c :: rest).length < fuel + 1) : (m.skip rest).length < fuel :=
  Nat.lt_of_le_of_lt (length_skip_le m rest) (Nat.lt_of_succ_lt_succ h)

theorem Trails.length_le_length (h : Trails n s s') : s.length ≤ s'.length := by
  cases h with
  | swallowed => exact Nat.le_refl 0
  | done => exact Nat.zero_le _
  | next h => simp

/-- What is left behind a character. -/
theorem trails_rest {rest : List Char} (h : rest.length < n) : Trails n rest (rest ++ ending) :=
  trails_append (Nat.le_of_lt h)

/-- The ending begins with no other text than a closing bracket.  So both have a text in front, or
none of them has. -/
theorem Trails.prefix_cases (h : Trails n s s') (w : List Char) (hne : w ≠ []) (hw : ')' ∉ w) :
    (∃ rest, rest.length < n ∧ s = w ++ rest ∧ s' = w ++ (rest ++ ending)) ∨
      (∀ rest, s ≠ w ++ rest) ∧ ∀ rest, s' ≠ w ++ rest := by
  have hempty : ∀ rest, [] ≠ w ++ rest := fun _ heq => hne (List.append_eq_nil_iff.1 heq.symm).1
  have happend : ∀ s : List Char, (∀ rest, s ≠ w ++ rest) → ∀ rest, s ++ ending ≠ w ++ rest := by
    intro s hs rest heq
    rcases List.append_eq_append_iff.1 heq with ⟨mid, rfl, hmid⟩ | ⟨mid, rfl, _⟩
    · cases mid with
      | nil => exact hs [] (by rw [List.append_nil, List.append_nil])
      | cons c mid =>
        obtain ⟨rfl, _⟩ := List.cons.inj hmid
        exact hw (List.mem_append_right _ List.mem_cons_self)
    · exact hs mid rfl
  cases h with
  | swallowed => exact .inr ⟨hempty, hempty⟩
  | done => exact .inr ⟨hempty, happend [] hempty⟩
  | @next c rest h =>
    by_cases hs : ∃ r, c :: rest = w ++ r
    · obtain ⟨r, hr⟩ := hs
      refine .inl ⟨r, ?_, hr, ?_⟩
      · have hlen := congrArg List.length hr
        have hpos := List.length_pos_of_ne_nil hne
        simp only [List.length_cons, List.length_append] at hlen
        omega
      · rw [← List.append_assoc, ← hr]
        rfl
    · have hs' := not_exists.1 hs
      exact .inr ⟨hs', happend (c :: rest) hs'⟩

theorem Trails.head_cases (h : Trails n s s') {c : Char} (hc : c ≠ ')') :
    (∃ rest, rest.length < n ∧ s = c :: rest ∧ s' = c :: (rest ++ ending)) ∨
      (∀ rest, s ≠ c :: rest) ∧ ∀ rest, s' ≠ c :: rest :=
  h.prefix_cases [c] (List.cons_ne_nil _ _) fun hmem => hc (List.mem_singleton.1 hmem).symm

/-! ### Outcomes -/

section Outcomes

variable {β γ : Type} {P : β → β → Prop} {L : β → Prop} {P' : γ → γ → Prop} {L' : γ → Prop}
  {a b : Option β}

theorem tracks_none (h : ∀ y, b = some y → L y) : Tracks P L none b := by
  cases b with
  | none => exact .failed
  | some y => exact .lost (h y rfl)

theorem Tracks.bind {f g : β → Option γ} (h : Tracks P L a b)
    (read : ∀ x y, P x y → Tracks P' L' (f x) (g y))
    (lost : ∀ y, L y → ∀ z, g y = some z → L' z) : Tracks P' L' (a >>= f) (b >>= g) := by
  cases h with
  | read h => exact read _ _ h
  | failed => exact .failed
  | lost h => exact tracks_none (lost _ h)

/-- The same without the ending's interference. -/
theorem Tracks.next {f g : β → Option γ} (h : Tracks P Never a b)
    (read : ∀ x y, P x y → Tracks P' L' (f x) (g y)) : Tracks P' L' (a >>= f) (b >>= g) :=
  h.bind read fun _ hy => hy.elim

theorem Tracks.mono {L' : β → Prop} (h : Tracks P L a b) (hL : ∀ y, L y → L' y) :
    Tracks P L' a b := by
  cases h with
  | read h => exact .read h
  | failed => exact .failed
  | lost h => exact .lost (hL _ h)

end Outcomes

/-! ### Escapes -/

theorem tracks_readHexDigits (m : Mode) (count k : Nat) (h : Trails n s s') :
    Tracks (Along (Trails n)) Never (readHexDigits m count k s) (readHexDigits m count k s') := by
  induction count generalizing k s s' with
  | zero => exact .read ⟨rfl, h⟩
  | succ count ih =>
    cases h with
    | swallowed => exact .failed
    | done => exact .failed
    | @next c rest h =>
      rw [readHexDigits, readHexDigits]
      cases Text.hexValue? c with
      | none => exact .failed
      | some d => exact ih _ ((trails_rest h).skip m)

theorem tracks_readHexBrace (m : Mode) (digits k : Nat) {fuel fuel' : Nat} (h : Trails n s s')
    (hs : s.length < fuel) (hfuel : fuel ≤ fuel') : Tracks (Along (Trails n)) Never
      (readHexBrace m fuel digits k s) (readHexBrace m fuel' digits k s') := by
  induction fuel generalizing fuel' digits k s s' with
  | zero => exact absurd hs (Nat.not_lt_zero _)
  | succ fuel ih =>
    obtain ⟨more, rfl⟩ := Nat.exists_eq_add_of_le' hfuel
    cases h with
    | swallowed => exact .failed
    | done => exact .failed
    | @next c rest h =>
      have hrest := (trails_rest h).skip m
      rw [← Nat.add_assoc]
      by_cases hc : c = '\x7d'
      · subst hc
        show Tracks _ _ (if digits = 0 then none else some (k, m.skip rest))
          (if digits = 0 then none else some (k, m.skip (rest ++ ending)))
        split
        · exact .failed
        · exact .read ⟨rfl, hrest⟩
      · rw [readHexBrace, readHexBrace]
        · cases Text.hexValue? c with
          | none => exact .failed
          | some d =>
            exact ih _ _ hrest (length_skip_lt m hs) (Nat.le_add_left fuel more)
        · exact hc
        · exact hc

/-- What is read does not depend on what is left. -/
theorem Tracks.filter {α : Type} {L : α × List Char → Prop} {a b : Option (α × List Char)}
    (h : Tracks (Along (Trails n)) L a b) (wanted : α → Bool) :
    Tracks (Along (Trails n)) L (a.filter fun x => wanted x.1) (b.filter fun x => wanted x.1) := by
  cases h with
  | @read x y h =>
    rw [Option.filter_some, Option.filter_some, ← h.1]
    split
    · exact .read h
    · exact .failed
  | failed => exact .failed
  | @lost y h =>
    rw [Option.filter_some]
    split
    · exact .lost h
    · exact .failed

theorem tracks_readHex (m : Mode) (count : Nat) (h : Trails n s s') :
    Tracks (Along (Trails n)) Never (readHex m count s) (readHex m count s') := by
  have hscalar : ∀ x y : Nat × List Char, Along (Trails n) x y →
      Tracks (Along (Trails n)) Never ((scalar? x.1).bind fun c => some (Primitive.char c, x.2))
        ((scalar? y.1).bind fun c => some (Primitive.char c, y.2)) := by
    rintro ⟨k, r⟩ ⟨_, r'⟩ ⟨rfl, h⟩
    dsimp only
    cases scalar? k with
    | none => exact .failed
    | some c => exact .read ⟨rfl, h⟩
  have hdigits : ∀ {r r' : List Char}, Trails n r r' → Tracks (Along (Trails n)) Never
      ((readHexDigits m count 0 r).filter fun x => m.hasByte count x.1)
      ((readHexDigits m count 0 r').filter fun x => m.hasByte count x.1) :=
    fun hr => (tracks_readHexDigits m count 0 hr).filter (m.hasByte count)
  have hskip := h.skip m
  unfold readHex
  generalize m.skip s = r at hskip ⊢
  generalize m.skip s' = r' at hskip ⊢
  cases hskip with
  | swallowed => exact (hdigits .swallowed).next hscalar
  | done => exact (hdigits .done).next hscalar
  | @next c rest h =>
    by_cases hc : c = '\x7b'
    · subst hc
      refine Tracks.next (tracks_readHexBrace m 0 0 ((trails_rest h).skip m) ?_ ?_) hscalar
      · exact Nat.lt_succ_of_le (length_skip_le m rest)
      · rw [List.length_append]
        omega
    · simp only [List.cons.injEq, hc, false_and, imp_false, not_false_eq_true, implies_true]
      exact (hdigits (.next h)).next hscalar

/-- A name ends with its brace. -/
theorem readBraceName_of_notMem (m : Mode) (allowed : Char → Bool) (fuel : Nat)
    (name : List Char) (h : '\x7d' ∉ s) : readBraceName m allowed fuel name s = none := by
  induction fuel generalizing name s with
  | zero => rfl
  | succ fuel ih =>
    cases s with
    | nil => rfl
    | cons c rest =>
      obtain ⟨hc, hrest⟩ := List.ne_and_not_mem_of_not_mem_cons h
      rw [readBraceName]
      · split
        · exact ih _ fun hmem => hrest ((suffix_skip m rest).subset hmem)
        · rfl
      · exact fun heq => hc heq.symm

theorem tracks_readBraceName (m : Mode) (allowed : Char → Bool) (name : List Char)
    {fuel fuel' : Nat} (h : Trails n s s') (hs : s.length < fuel) (hfuel : fuel ≤ fuel') :
    Tracks (Along (Trails n)) Never (readBraceName m allowed fuel name s)
      (readBraceName m allowed fuel' name s') := by
  induction fuel generalizing fuel' name s s' with
  | zero => exact absurd hs (Nat.not_lt_zero _)
  | succ fuel ih =>
    obtain ⟨more, rfl⟩ := Nat.exists_eq_add_of_le' hfuel
    cases h with
    | swallowed => exact .failed
    | done =>
      rw [readBraceName_of_notMem (s := ending) m allowed _ name (by decide)]
      exact .failed
    | @next c rest h =>
      rw [← Nat.add_assoc]
      by_cases hc : c = '\x7d'
      · subst hc
        exact .read ⟨rfl, trails_rest h⟩
      · rw [readBraceName, readBraceName]
        · split
          · exact ih _ ((trails_rest h).skip m) (length_skip_lt m hs) (Nat.le_add_left fuel more)
          · exact .failed
        · exact hc
        · exact hc

/-- Behind a word boundary, a brace that opens no name stays for what is read next. -/
def OpenBrace (m : Mode) (x : Primitive × List Char) : Prop :=
  (∃ l, x.1 = .look l) ∧ ∃ rest, x.2 = '\x7b' :: rest ∧ m.skip rest = ending

theorem tracks_readBoundary (m : Mode) (h : Trails n s s') : Tracks (Along (Trails n))
    (OpenBrace m) (readBoundary E m s) (readBoundary E m s') := by
  cases h with
  | swallowed => exact .read ⟨rfl, .swallowed⟩
  | done => exact .read ⟨rfl, .done⟩
  | @next c inner h =>
    by_cases hc : c = '\x7b'
    · subst hc
      have hskip := (trails_rest h).skip m
      rw [readBoundary, readBoundary]
      generalize hr : m.skip inner = r at hskip ⊢
      generalize hr' : m.skip (inner ++ ending) = r' at hskip ⊢
      cases hskip with
      | swallowed => exact .failed
      -- No name begins with a bracket, so the brace is not read here.
      | done => exact .lost ⟨⟨_, rfl⟩, inner ++ ending, rfl, hr'⟩
      | @next c rest h' =>
        dsimp only
        split
        · refine Tracks.next (tracks_readBraceName m isBoundaryName [] (.next h') ?_ ?_) ?_
          · simp
          · simp
          · rintro ⟨name, r⟩ ⟨_, r'⟩ ⟨rfl, hr⟩
            dsimp only
            split
            all_goals first | exact .failed | exact .read ⟨rfl, hr⟩
        · exact .read ⟨rfl, .next h⟩
    · rw [readBoundary, readBoundary]
      · exact .read ⟨rfl, .next h⟩
      · exact fun _ heq => hc (List.cons.inj heq).1
      · exact fun _ heq => hc (List.cons.inj heq).1

/-- The bracket of the ending can be taken for the name of a property. -/
theorem tracks_readPropertyName (m : Mode) (h : Trails n s s') : Tracks (Along (Trails n))
    (fun x => x.2 = ['$']) (readPropertyName m s) (readPropertyName m s') := by
  have hskip := h.skip m
  unfold readPropertyName
  generalize m.skip s = r at hskip ⊢
  generalize m.skip s' = r' at hskip ⊢
  cases hskip with
  | swallowed => exact .failed
  | done => exact .lost rfl
  | @next c rest h =>
    by_cases hslash : c = '\\'
    · subst hslash
      exact .failed
    by_cases hbrace : c = '\x7b'
    · subst hbrace
      refine (tracks_readBraceName m _ [] ((trails_rest h).skip m) ?_ ?_).mono fun _ hy => hy.elim
      · exact Nat.lt_succ_of_le (length_skip_le m rest)
      · rw [List.length_append]
        omega
    · simp only
      exact .read ⟨rfl, trails_rest h⟩

/-- A character can stand for itself, and a part of a pattern can be one that is not in it. -/
def Stuck (m : Mode) (x : Primitive × List Char) : Prop := x.2 = ['$'] ∨ OpenBrace m x

theorem tracks_readProperty (m : Mode) (negated : Bool) (h : Trails n s s') :
    Tracks (Along (Trails n)) (Stuck m) (readProperty E m negated s)
      (readProperty E m negated s') := by
  refine (tracks_readPropertyName m h).bind ?_ ?_
  · rintro ⟨name, r⟩ ⟨_, r'⟩ ⟨rfl, hr⟩
    dsimp only
    cases m.property? E negated name with
    | none => exact .failed
    | some set => exact .read ⟨rfl, hr⟩
  · rintro ⟨name, _⟩ rfl x hx
    obtain ⟨set, -, hset⟩ := Option.bind_eq_some_iff.1 hx
    cases hset
    exact .inl rfl

/-- An escape of a single character leaves what is behind it. -/
theorem readEscape_cons (m : Mode) {c : Char} (hx : c ≠ 'x') (hu : c ≠ 'u') (hU : c ≠ 'U')
    (hp : c ≠ 'p') (hP : c ≠ 'P') (hb : c ≠ 'b') (rest : List Char) :
    readEscape E m (c :: rest) = (readEscape E m [c]).map fun x => (x.1, rest) := by
  simp only [readEscape]
  cases letterClass? E m c with
  | some s =>
    cases s with
    | none => rfl
    | some s => rfl
  | none =>
    dsimp only
    split
    · rfl
    · split
      all_goals first | rfl | contradiction

theorem tracks_readEscape (m : Mode) (h : Trails n s s') : Tracks (Along (Trails n)) (Stuck m)
    (readEscape E m s) (readEscape E m s') := by
  cases h with
  | swallowed => exact .failed
  | done => exact .lost (.inl rfl)
  | @next c rest h =>
    have hrest := trails_rest h
    by_cases hx : c = 'x'
    · subst hx
      exact (tracks_readHex m 2 hrest).mono fun _ hy => hy.elim
    by_cases hu : c = 'u'
    · subst hu
      exact (tracks_readHex m 4 hrest).mono fun _ hy => hy.elim
    by_cases hU : c = 'U'
    · subst hU
      exact (tracks_readHex m 8 hrest).mono fun _ hy => hy.elim
    by_cases hp : c = 'p'
    · subst hp
      exact tracks_readProperty m false hrest
    by_cases hP : c = 'P'
    · subst hP
      exact tracks_readProperty m true hrest
    by_cases hb : c = 'b'
    · subst hb
      exact (tracks_readBoundary m hrest).mono fun _ hy => .inr hy
    · rw [readEscape_cons m hx hu hU hp hP hb, readEscape_cons m hx hu hU hp hP hb (rest ++ ending)]
      cases readEscape E m [c] with
      | none => exact .failed
      | some x => exact .read ⟨rfl, hrest⟩

/-! ### Repetitions -/

theorem Trails.skipLazy (h : Trails n s s') : Trails n (skipLazy s) (skipLazy s') := by
  cases h with
  | swallowed => exact .swallowed
  | done => exact .done
  | @next c rest h =>
    by_cases hc : c = '?'
    · subst hc
      exact trails_rest h
    · rw [Pattern.skipLazy, Pattern.skipLazy]
      · exact .next h
      · exact fun _ heq => hc (List.cons.inj heq).1
      · exact fun _ heq => hc (List.cons.inj heq).1

theorem Trails.dropBlanks (h : Trails n s s') :
    Trails n (s.dropWhile Text.isBlank) (s'.dropWhile Text.isBlank) := by
  have happend : ∀ r : List Char, r.length ≤ n →
      Trails n (r.dropWhile Text.isBlank) ((r ++ ending).dropWhile Text.isBlank) := by
    intro r hr
    induction r with
    | nil => exact .done
    | cons c rest ih =>
      rw [List.cons_append, List.dropWhile_cons, List.dropWhile_cons]
      split
      · exact ih (Nat.le_of_succ_le hr)
      · exact .next hr
  cases h with
  | swallowed => exact .swallowed
  | done => exact .done
  | next h => exact happend (_ :: _) h

/-- A number ends at the ending. -/
theorem along_digits (m : Mode) (k : Option Nat) {fuel fuel' : Nat} (h : Trails n s s')
    (hs : s.length < fuel) (hfuel : fuel ≤ fuel') : Along (Trails n)
      (readCount.digits m fuel k s) (readCount.digits m fuel' k s') := by
  induction fuel generalizing fuel' k s s' with
  | zero => exact absurd hs (Nat.not_lt_zero _)
  | succ fuel ih =>
    obtain ⟨more, rfl⟩ := Nat.exists_eq_add_of_le' hfuel
    cases h with
    | swallowed => exact ⟨rfl, .swallowed⟩
    | done => exact ⟨rfl, .done⟩
    | @next c rest h =>
      rw [← Nat.add_assoc, readCount.digits, readCount.digits]
      split
      · exact ih _ ((trails_rest h).skip m) (length_skip_lt m hs) (Nat.le_add_left fuel more)
      · exact ⟨rfl, .next h⟩

theorem along_readCount (m : Mode) (h : Trails n s s') :
    Along (Trails n) (readCount m s) (readCount m s') := by
  have hblanks := h.dropBlanks
  have hdigits := along_digits m none hblanks (Nat.lt_succ_self _)
    (Nat.succ_le_succ hblanks.length_le_length)
  unfold readCount
  dsimp only
  exact ⟨hdigits.1, hdigits.2.dropBlanks.skip m⟩

theorem tracks_readCounts (m : Mode) (h : Trails n s s') :
    Tracks (Along (Along (Trails n))) Never (readCounts m s) (readCounts m s') := by
  obtain ⟨hlow, hrest⟩ := along_readCount m (h.skip m)
  unfold readCounts
  dsimp only
  rw [← hlow]
  cases (readCount m (m.skip s)).1 with
  | none => exact .failed
  | some low =>
    dsimp only [Option.bind_some, bind]
    split
    · exact .failed
    · generalize (readCount m (m.skip s)).2 = r at hrest ⊢
      generalize (readCount m (m.skip s')).2 = r' at hrest ⊢
      rcases hrest.head_cases (c := '\x7d') (by decide) with
        ⟨rest, hlen, rfl, rfl⟩ | ⟨hbrace, hbrace'⟩
      · exact .read ⟨rfl, rfl, trails_rest hlen⟩
      rcases hrest.head_cases (c := ',') (by decide) with
        ⟨rest, hlen, rfl, rfl⟩ | ⟨hcomma, hcomma'⟩
      · have hskip := (trails_rest hlen).skip m
        simp only
        generalize m.skip rest = r at hskip ⊢
        generalize m.skip (rest ++ ending) = r' at hskip ⊢
        rcases hskip.head_cases (c := '\x7d') (by decide) with
          ⟨rest, hlen, rfl, rfl⟩ | ⟨hbrace, hbrace'⟩
        · exact .read ⟨rfl, rfl, trails_rest hlen⟩
        · simp only
          obtain ⟨hhigh, hlast⟩ := along_readCount m hskip
          rw [← hhigh]
          cases (readCount m r).1 with
          | none => exact .failed
          | some high =>
            dsimp only [Option.bind_some]
            split
            · exact .failed
            · generalize (readCount m r).2 = t at hlast ⊢
              generalize (readCount m r').2 = t' at hlast ⊢
              rcases hlast.head_cases (c := '\x7d') (by decide) with
                ⟨rest, hlen, rfl, rfl⟩ | ⟨hbrace, hbrace'⟩
              · exact .read ⟨rfl, rfl, trails_rest hlen⟩
              · simp only
                exact .failed
      · simp only
        exact .failed

/-! ### Groups -/

theorem tracks_readModes (seen : List Char) (m : Mode) {s : List Char} (hs : s.length ≤ n) :
    Tracks (Along (Trails n)) (fun x => x.2 = ending) (readModes seen m s)
      (readModes seen m (s ++ ending)) := by
  induction s generalizing seen m with
  | nil =>
    rw [List.nil_append, ending, readModes, readModes]
    simp only [or_true, if_true]
    split
    · exact .failed
    · exact .lost rfl
  | cons c rest ih =>
    have hnext := fun m => ih (c :: seen) m (Nat.le_of_succ_le hs)
    rw [List.cons_append, readModes, readModes]
    split
    · split
      · exact .failed
      · exact .read ⟨rfl, .next hs⟩
    · split
      · exact .failed
      · dsimp only
        split
        all_goals first | exact hnext _ | exact .failed

/-- A text that ends at a character that is not in the ending. -/
theorem Trails.split_cases (h : Trails n s s') {c : Char} (hc : c ∉ ending) :
    (∃ rest, rest.length < n ∧ s.dropWhile (· != c) = c :: rest ∧
      s'.dropWhile (· != c) = c :: (rest ++ ending) ∧
      s'.takeWhile (· != c) = s.takeWhile (· != c)) ∨
      s.dropWhile (· != c) = [] ∧ s'.dropWhile (· != c) = [] := by
  have hending : ending.dropWhile (· != c) = [] := by
    obtain ⟨hbracket, hdollar⟩ := List.mem_cons.not.1 hc |> not_or.1
    simp only [List.mem_singleton] at hdollar
    simp [ending, Ne.symm hbracket, Ne.symm hdollar]
  have happend : ∀ r : List Char, r.length ≤ n →
      (∃ rest, rest.length < n ∧ r.dropWhile (· != c) = c :: rest ∧
        (r ++ ending).dropWhile (· != c) = c :: (rest ++ ending) ∧
        (r ++ ending).takeWhile (· != c) = r.takeWhile (· != c)) ∨
        r.dropWhile (· != c) = [] ∧ (r ++ ending).dropWhile (· != c) = [] := by
    intro r hr
    induction r with
    | nil => exact .inr ⟨rfl, hending⟩
    | cons d rest ih =>
      by_cases hd : d = c
      · subst hd
        exact .inl ⟨rest, hr, by simp⟩
      · simpa [hd] using ih (Nat.le_of_succ_le hr)
  cases h with
  | swallowed => exact .inr ⟨rfl, rfl⟩
  | done => exact .inr ⟨rfl, hending⟩
  | next h => exact happend (_ :: _) h

theorem tracks_readName (h : Trails n s s') :
    Tracks (Along (Trails n)) Never (readName E s) (readName E s') := by
  unfold readName
  rcases h.split_cases (c := '>') (by decide) with
    ⟨rest, hlen, hdrop, hdrop', htake⟩ | ⟨hdrop, hdrop'⟩
  · rw [hdrop, hdrop', htake]
    dsimp only
    cases s.takeWhile (· != '>') with
    | nil => exact .failed
    | cons c cs =>
      simp only
      split
      · exact .read ⟨rfl, trails_rest hlen⟩
      · exact .failed
  · rw [hdrop, hdrop']
    exact .failed

/-- The end of the pattern can close a group of modes. -/
theorem tracks_readGroupHead (m : Mode) (h : Trails n s s') : Tracks (Along (Trails n))
    (fun x => x.2 = ['$']) (readGroupHead E m s) (readGroupHead E m s') := by
  have hname : ∀ x y : String × List Char, Along (Trails n) x y →
      Tracks (Along (Trails n)) (fun x => x.2 = ['$'])
        (some (GroupHead.opened m (some x.1), x.2))
        (some (GroupHead.opened m (some y.1), y.2)) := by
    rintro ⟨name, r⟩ ⟨_, r'⟩ ⟨rfl, hr⟩
    exact .read ⟨rfl, hr⟩
  have hskip := h.skip m
  unfold readGroupHead
  generalize m.skip s = r at hskip ⊢
  generalize m.skip s' = r' at hskip ⊢
  rcases hskip.prefix_cases ['?', '='] (by simp) (by simp) with
    ⟨rest, hlen, rfl, rfl⟩ | ⟨hahead, hahead'⟩
  · exact .failed
  rcases hskip.prefix_cases ['?', '!'] (by simp) (by simp) with
    ⟨rest, hlen, rfl, rfl⟩ | ⟨hnot, hnot'⟩
  · exact .failed
  rcases hskip.prefix_cases ['?', '<', '='] (by simp) (by simp) with
    ⟨rest, hlen, rfl, rfl⟩ | ⟨hbehind, hbehind'⟩
  · exact .failed
  rcases hskip.prefix_cases ['?', '<', '!'] (by simp) (by simp) with
    ⟨rest, hlen, rfl, rfl⟩ | ⟨hnever, hnever'⟩
  · exact .failed
  rcases hskip.prefix_cases ['?', 'P', '<'] (by simp) (by simp) with
    ⟨rest, hlen, rfl, rfl⟩ | ⟨hlong, hlong'⟩
  · exact (tracks_readName (trails_rest hlen)).next hname
  rcases hskip.prefix_cases ['?', '<'] (by simp) (by simp) with
    ⟨rest, hlen, rfl, rfl⟩ | ⟨hshort, hshort'⟩
  · simp only [List.cons_append, List.nil_append, ne_eq, List.cons.injEq, true_and] at *
    simp only
    exact (tracks_readName (trails_rest hlen)).next hname
  rcases hskip.head_cases (c := '?') (by decide) with
    ⟨rest, hlen, rfl, rfl⟩ | ⟨hmark, hmark'⟩
  · simp only [List.cons_append, List.nil_append, ne_eq, List.cons.injEq, true_and] at *
    simp only
    cases rest with
    -- There have to be modes between the mark and the bracket of the ending.
    | nil => exact .failed
    | cons d rest =>
      refine (tracks_readModes [] m (Nat.le_of_lt hlen)).bind ?_ ?_
      · rintro ⟨inner, r⟩ ⟨_, r'⟩ ⟨rfl, hr⟩
        cases hr with
        | swallowed => exact .failed
        | done =>
          show Tracks _ _ none (if some d = some ')' then none else some (GroupHead.modes inner, _))
          split
          · exact .failed
          · exact .lost rfl
        | @next c after hafter =>
          by_cases hc : c = ')'
          · subst hc
            show Tracks _ _
              (if some d = some ')' then none else some (GroupHead.modes inner, after))
              (if some d = some ')' then none else some (GroupHead.modes inner, after ++ ending))
            split
            · exact .failed
            · exact .read ⟨rfl, trails_rest hafter⟩
          · simp only
            exact .read ⟨rfl, trails_rest hafter⟩
      · rintro ⟨inner, _⟩ rfl x hx
        change (if some d = some ')' then none else some (GroupHead.modes inner, _)) = some x at hx
        split at hx
        · cases hx
        · cases hx
          rfl
  · simp only [List.cons_append, List.nil_append] at *
    exact .read ⟨rfl, hskip⟩

end Pattern
end TaskGen
