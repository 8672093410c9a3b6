import TaskGen.Proofs.Pattern.Ending

/-!
Classes in brackets with and without the ending of a pattern.  A class needs its closing bracket,
and the ending has none.  So no class reaches into the ending.
-/

namespace TaskGen
namespace Pattern

variable {E : Engine} {n : Nat} {s s' : List Char}

/-- Only the ending or a part of it is left. -/
def Spent (r : List Char) : Prop := r <:+ ending

theorem spent_dollar : Spent ['$'] := List.suffix_cons _ _

theorem skip_cons (m : Mode) {c : Char} (hblank : Text.isBlank c = false) (hc : c ≠ '#')
    (rest : List Char) : m.skip (c :: rest) = c :: rest := by
  have hsolid : skipBlanks false (c :: rest) = c :: rest := by
    rw [skipBlanks, if_neg (Bool.eq_false_iff.1 hblank), if_neg hc]
  rw [Mode.skip, hsolid, ite_self]

theorem Trails.head_iff (h : Trails n s s') {c : Char} (hc : c ≠ ')') :
    s'.head? = some c ↔ s.head? = some c := by
  cases h with
  | swallowed => exact Iff.rfl
  | done =>
    constructor
    · intro hhead
      cases hhead
      exact (hc rfl).elim
    · intro hhead
      cases hhead
  | next _ => exact Iff.rfl

/-- A range looks ahead for characters that are not in the ending. -/
theorem Trails.peek (h : Trails n s s') (m : Mode) {c : Char} (hc : c ≠ ')') :
    m.peek s' = some c ↔ m.peek s = some c := by
  have hblanks := h.dropBlanks
  unfold Mode.peek
  split
  · rcases hblanks.head_cases (c := '#') (by decide) with
      ⟨rest, hlen, hs, hs'⟩ | ⟨hcomment, hcomment'⟩
    · rw [hs, hs']
      exact (trails_rest hlen).dropBlanks.head_iff hc
    · simp only
      exact hblanks.head_iff hc
  · exact h.head_iff hc

theorem tracks_readClassItem (m : Mode) (h : Trails (n + 1) s s') : Tracks (Along (Trails n))
    (Stuck m) (readClassItem E m s) (readClassItem E m s') := by
  cases h with
  | swallowed => exact .failed
  | done => exact .lost (.inl rfl)
  | @next c rest h =>
    have hrest : Trails n rest (rest ++ ending) := trails_append (Nat.le_of_lt_succ h)
    by_cases hc : c = '\\'
    · subst hc
      exact tracks_readEscape m hrest
    · rw [readClassItem, readClassItem]
      · exact .read ⟨rfl, hrest⟩
      · exact hc
      · exact hc

theorem tracks_single (single : Option CharSet) (h : Trails n s s') :
    Tracks (Along (Trails n)) (fun x => Spent x.2) (single.bind fun set => some (set, s))
      (single.bind fun set => some (set, s')) := by
  cases single with
  | none => exact .failed
  | some set => exact .read ⟨rfl, h⟩

theorem spent_of_single (single : Option CharSet) {v : List Char} (hv : Spent v)
    {x : CharSet × List Char} (h : (single.bind fun set => some (set, v)) = some x) :
    Spent x.2 := by
  obtain ⟨set, _, hset⟩ := Option.bind_eq_some_iff.1 h
  cases hset
  exact hv

/-- A range can end with a character of the ending. -/
theorem spent_of_range {m : Mode} (low : Char) {y : Primitive × List Char} (hy : Stuck m y)
    {x : CharSet × List Char} (h : ((y.1.classChar? m).bind fun high =>
      if low ≤ high then some (CharSet.range low high, y.2) else none) = some x) : Spent x.2 := by
  obtain ⟨second, v⟩ := y
  rcases hy with rfl | ⟨⟨l, rfl⟩, _⟩
  · obtain ⟨high, _, hrange⟩ := Option.bind_eq_some_iff.1 h
    split at hrange
    · cases hrange
      exact spent_dollar
    · cases hrange
  · cases h

theorem tracks_readClassRange (m : Mode) (h : Trails (n + 1) s s') : Tracks (Along (Trails n))
    (fun x => Spent x.2) (readClassRange E m s) (readClassRange E m s') := by
  unfold readClassRange
  refine (tracks_readClassItem m h).bind ?_ ?_
  · rintro ⟨first, r⟩ ⟨_, r'⟩ ⟨rfl, hr⟩
    have hskip := hr.skip m
    dsimp only
    generalize m.skip r = t at hskip ⊢
    generalize m.skip r' = t' at hskip ⊢
    rcases hskip.head_cases (c := '-') (by decide) with
      ⟨after, hlen, rfl, rfl⟩ | ⟨hminus, hminus'⟩
    · have hminus : Trails n ('-' :: after) ('-' :: (after ++ ending)) := .next hlen
      have hclose := (trails_rest hlen).peek m (c := ']') (by decide)
      have hagain := (trails_rest hlen).peek m (c := '-') (by decide)
      simp only [hclose, hagain]
      split
      · exact tracks_single _ hminus
      · have hafter := (trails_rest hlen).skip m
        generalize m.skip after = t at hafter ⊢
        generalize m.skip (after ++ ending) = t' at hafter ⊢
        cases hafter with
        | swallowed => exact .failed
        | done =>
          cases first.classChar? m with
          | none => exact .failed
          | some low =>
            exact tracks_none fun x => spent_of_range low (y := (.char ')', ['$'])) (.inl rfl)
        | @next c rest hrest =>
          dsimp only
          cases first.classChar? m with
          | none => exact .failed
          | some low =>
            refine (tracks_readClassItem m (.next (Nat.lt_succ_of_lt hrest))).bind ?_ ?_
            · rintro ⟨second, r⟩ ⟨_, r'⟩ ⟨rfl, hr⟩
              dsimp only
              cases second.classChar? m with
              | none => exact .failed
              | some high =>
                dsimp only [Option.bind_some, bind]
                split
                · exact .read ⟨rfl, hr⟩
                · exact .failed
            · exact fun y hy x => spent_of_range low hy
    · cases hskip with
      | swallowed => exact .failed
      | done => exact tracks_none fun x => spent_of_single _ (List.suffix_refl _)
      | @next c after hafter =>
        simp only
        exact tracks_single _ (.next hafter)
  · rintro ⟨first, _⟩ (rfl | ⟨⟨l, rfl⟩, rest, rfl, hrest⟩) x hx
    · dsimp only at hx
      rw [skip_cons m rfl (by decide)] at hx
      exact spent_of_single _ spent_dollar hx
    · dsimp only at hx
      rw [skip_cons m rfl (by decide)] at hx
      cases hx

/-- The name of a class ends before the ending. -/
theorem Trails.name_cases (h : Trails n s s') :
    (∃ rest, rest.length < n ∧ s.dropWhile (· != ':') = ':' :: ']' :: rest ∧
      s'.dropWhile (· != ':') = ':' :: ']' :: (rest ++ ending) ∧
      s'.takeWhile (· != ':') = s.takeWhile (· != ':')) ∨
      (∀ rest, s.dropWhile (· != ':') ≠ ':' :: ']' :: rest) ∧
        ∀ rest, s'.dropWhile (· != ':') ≠ ':' :: ']' :: rest := by
  rcases h.split_cases (c := ':') (by decide) with
    ⟨rest, hlen, hdrop, hdrop', htake⟩ | ⟨hdrop, hdrop'⟩
  · rw [hdrop, hdrop']
    rcases (trails_rest hlen).head_cases (c := ']') (by decide) with
      ⟨inner, hinner, rfl, heq⟩ | ⟨hbracket, hbracket'⟩
    · exact .inl ⟨inner, hinner, rfl, congrArg _ heq, htake⟩
    · refine .inr ⟨fun t heq => ?_, fun t heq => ?_⟩
      · exact hbracket t (List.cons.inj heq).2
      · exact hbracket' t (List.cons.inj heq).2
  · rw [hdrop, hdrop']
    exact .inr ⟨fun _ => (List.cons_ne_nil _ _).symm, fun _ => (List.cons_ne_nil _ _).symm⟩

theorem tracks_readNamedClass (m : Mode) (h : Trails n s s') :
    Tracks (Along (Trails n)) Never (readNamedClass E m s) (readNamedClass E m s') := by
  have hfinish : ∀ (named : Option (Option CharSet)) {rest : List Char}, rest.length < n →
      Tracks (Along (Trails n)) Never (named.map fun s => (s, rest))
        (named.map fun s => (s, rest ++ ending)) := by
    intro named rest hlen
    cases named with
    | none => exact .failed
    | some s => exact .read ⟨rfl, trails_rest hlen⟩
  unfold readNamedClass
  rcases h.head_cases (c := ':') (by decide) with ⟨rest, hlen, rfl, rfl⟩ | ⟨hcolon, hcolon'⟩
  · simp only
    rcases (trails_rest hlen).head_cases (c := '^') (by decide) with
      ⟨name, hname, rfl, heq⟩ | ⟨hnegated, hnegated'⟩
    · rw [heq]
      simp only
      rcases (trails_rest hname).name_cases with
        ⟨after, hafter, hdrop, hdrop', htake⟩ | ⟨hdrop, hdrop'⟩
      · rw [hdrop, hdrop', htake]
        exact hfinish _ hafter
      · simp only
        exact .failed
    · simp only
      rcases (trails_rest hlen).name_cases with
        ⟨after, hafter, hdrop, hdrop', htake⟩ | ⟨hdrop, hdrop'⟩
      · rw [hdrop, hdrop', htake]
        exact hfinish _ hafter
      · simp only
        exact .failed
  · simp only
    exact .failed

theorem tracks_readClassFront (m : Mode) (items : ClassItems) {fuel fuel' : Nat}
    (h : Trails n s s') (hs : s.length < fuel) (hfuel : fuel ≤ fuel') :
    Tracks (Along (Trails n)) (fun x => Spent x.2) (readClassFront m fuel items s)
      (readClassFront m fuel' items s') := by
  induction fuel generalizing fuel' items s s' with
  | zero => exact absurd hs (Nat.not_lt_zero _)
  | succ fuel ih =>
    obtain ⟨more, rfl⟩ := Nat.exists_eq_add_of_le' hfuel
    rw [← Nat.add_assoc]
    cases h with
    | swallowed => exact .failed
    | done => exact .lost (List.suffix_refl _)
    | @next c rest h =>
      have hskip := (trails_rest h).skip m
      by_cases hminus : c = '-'
      · subst hminus
        exact ih _ hskip (length_skip_lt m hs) (Nat.le_add_left fuel more)
      by_cases hbracket : c = ']'
      · subst hbracket
        simp only [readClassFront]
        split
        · generalize m.skip rest = r at hskip ⊢
          generalize m.skip (rest ++ ending) = r' at hskip ⊢
          cases hskip with
          | swallowed => exact .failed
          | done => exact .lost (List.suffix_refl _)
          | next h => exact .read ⟨rfl, .next h⟩
        · exact .read ⟨rfl, .next h⟩
      · simp only [readClassFront, List.cons.injEq, hminus, hbracket, false_and, imp_false,
          not_false_eq_true, implies_true]
        exact .read ⟨rfl, .next h⟩

theorem tracks_readClassOpen (m : Mode) (h : Trails n s s') : Tracks (Along (Along (Trails n)))
    (fun x => Spent x.2.2) (readClassOpen m s) (readClassOpen m s') := by
  have hfront : ∀ (negated : Bool) {r r' : List Char}, Trails n r r' →
      Tracks (Along (Along (Trails n))) (fun x => Spent x.2.2)
        ((readClassFront m (r.length + 1) {} r).bind fun x => some (negated, x.1, x.2))
        ((readClassFront m (r'.length + 1) {} r').bind
          fun x => some (negated, x.1, x.2)) := by
    intro negated r r' hr
    refine (tracks_readClassFront m {} hr (Nat.lt_succ_self _)
      (Nat.succ_le_succ hr.length_le_length)).bind ?_ ?_
    · rintro ⟨items, t⟩ ⟨_, t'⟩ ⟨rfl, ht⟩
      exact .read ⟨rfl, rfl, ht⟩
    · rintro ⟨items, t⟩ ht x hx
      cases hx
      exact ht
  unfold readClassOpen
  rcases (h.skip m).head_cases (c := '^') (by decide) with
    ⟨rest, hlen, hs, hs'⟩ | ⟨hnegated, hnegated'⟩
  · rw [hs, hs']
    exact hfront true ((trails_rest hlen).skip m)
  · simp only
    exact hfront false (h.skip m)

theorem spent_of_readClassRange (m : Mode) {x : CharSet × List Char}
    (h : readClassRange E m ending = some x) : Spent x.2 := by
  have htracks := tracks_readClassRange (E := E) (n := 0) m .done
  rw [h] at htracks
  have hnone : readClassRange E m [] = none := rfl
  rw [hnone] at htracks
  cases htracks with
  | lost h => exact h

theorem skip_nil (m : Mode) : m.skip [] = [] := ite_self _

theorem readClassRange_dollar (m : Mode) : readClassRange E m ['$'] = none := by
  have hitem : readClassItem E m ['$'] = some (.char '$', []) := rfl
  rw [readClassRange, hitem]
  dsimp only [Option.bind_some, bind]
  rw [skip_nil]

/-- There is no closing bracket. -/
theorem readClassItems_spent (m : Mode) (fuel : Nat) (pending : Option (SetOp × ClassPart))
    (items : ClassItems) {v : List Char} (h : Spent v) :
    readClassItems E m fuel pending items v = none := by
  induction fuel generalizing pending items v with
  | zero => rfl
  | succ fuel ih =>
    rw [readClassItems]
    rcases List.suffix_cons_iff.1 h with rfl | h
    · rw [skip_cons m rfl (by decide)]
      exact Option.bind_eq_none_iff.2 fun x hx => ih _ _ (spent_of_readClassRange m hx)
    rcases List.suffix_cons_iff.1 h with rfl | h
    · rw [skip_cons m rfl (by decide)]
      exact Option.bind_eq_none_iff.2 fun x hx => by
        rw [readClassRange_dollar] at hx
        cases hx
    · rw [List.suffix_nil.1 h, skip_nil]

def ItemsAgree (E : Engine) (m : Mode) (fuel fuel' : Nat) : Prop :=
  ∀ {n : Nat} {s s' : List Char} (pending : Option (SetOp × ClassPart)) (items : ClassItems),
    Trails n s s' → s.length < fuel → Tracks (Along (Trails n)) Never
      (readClassItems E m fuel pending items s) (readClassItems E m fuel' pending items s')

section Items

variable {m : Mode} {fuel fuel' : Nat} {pending : Option (SetOp × ClassPart)} {items : ClassItems}

theorem ItemsAgree.next (h : ItemsAgree E m fuel fuel') (pending : Option (SetOp × ClassPart))
    (items : ClassItems) {k : Nat} {t t' : List Char} (ht : Trails k t t') (hn : k < n)
    (hk : k < fuel) : Tracks (Along (Trails n)) Never
      (readClassItems E m fuel pending items t) (readClassItems E m fuel' pending items t') :=
  h pending items (ht.mono (Nat.le_of_lt hn)) (Nat.lt_of_le_of_lt ht.length_le hk)

theorem not_readClassItems_of_spent {v : List Char} (hv : Spent v) {x : ClassPart × List Char}
    (h : readClassItems E m fuel pending items v = some x) : False := by
  rw [readClassItems_spent m _ _ _ hv] at h
  cases h

theorem ItemsAgree.nested (h : ItemsAgree E m fuel fuel') {rest : List Char}
    (hn : rest.length < n) (hk : rest.length < fuel) (hskip : m.skip s = '[' :: rest)
    (hskip' : m.skip s' = '[' :: (rest ++ ending)) : Tracks (Along (Trails n)) Never
      (readClassItems E m (fuel + 1) pending items s)
      (readClassItems E m (fuel' + 1) pending items s') := by
  have hinside : Trails rest.length rest (rest ++ ending) := trails_append (Nat.le_refl _)
  have hnamed := tracks_readNamedClass (E := E) m hinside
  rw [readClassItems, readClassItems, hskip, hskip']
  simp only
  generalize readNamedClass E m rest = a at hnamed ⊢
  generalize readNamedClass E m (rest ++ ending) = b at hnamed ⊢
  cases hnamed with
  | @read x y hxy =>
    obtain ⟨⟨named, t⟩, ⟨_, t'⟩⟩ := x, y
    obtain ⟨rfl, ht⟩ := hxy
    cases named with
    | none => exact .failed
    | some set => exact h.next _ _ ht hn hk
  | lost h => exact h.elim
  | failed =>
    refine (tracks_readClassOpen m hinside).bind ?_ ?_
    · rintro ⟨negated, front, t⟩ ⟨_, _, t'⟩ ⟨rfl, rfl, ht⟩
      refine (h none front ht (Nat.lt_of_le_of_lt ht.length_le hk)).next ?_
      rintro ⟨inner, u⟩ ⟨_, u'⟩ ⟨rfl, hu⟩
      dsimp only
      cases bracketed? E m negated inner with
      | none => exact .failed
      | some part => exact h.next _ _ hu hn hk
    · rintro ⟨negated, front, v⟩ hv x hx
      obtain ⟨y, hy, _⟩ := Option.bind_eq_some_iff.1 hx
      exact not_readClassItems_of_spent hv hy

theorem ItemsAgree.step (h : ItemsAgree E m fuel fuel') :
    ItemsAgree E m (fuel + 1) (fuel' + 1) := by
  intro n s s' pending items hs hlen
  have hskip := hs.skip m
  have hfuel := Nat.le_trans (length_skip_le m s) (Nat.le_of_lt_succ hlen)
  generalize hr : m.skip s = r at hskip hfuel
  generalize hr' : m.skip s' = r' at hskip
  rcases hskip.head_cases (c := '[') (by decide) with
    ⟨rest, hrest, rfl, rfl⟩ | ⟨hopen, hopen'⟩
  · exact h.nested hrest hfuel hr hr'
  rw [readClassItems, readClassItems, hr, hr']
  rcases hskip.head_cases (c := ']') (by decide) with
    ⟨rest, hrest, rfl, rfl⟩ | ⟨hclose, hclose'⟩
  · exact .read ⟨rfl, trails_rest hrest⟩
  rcases hskip.prefix_cases ['&', '&'] (by simp) (by simp) with
    ⟨rest, hrest, rfl, rfl⟩ | ⟨hinter, hinter'⟩
  · exact h.next _ _ (trails_append (Nat.le_refl _)) hrest (Nat.lt_of_succ_lt hfuel)
  rcases hskip.prefix_cases ['-', '-'] (by simp) (by simp) with
    ⟨rest, hrest, rfl, rfl⟩ | ⟨hdiff, hdiff'⟩
  · exact h.next _ _ (trails_append (Nat.le_refl _)) hrest (Nat.lt_of_succ_lt hfuel)
  rcases hskip.prefix_cases ['~', '~'] (by simp) (by simp) with
    ⟨rest, hrest, rfl, rfl⟩ | ⟨hsymm, hsymm'⟩
  · exact h.next _ _ (trails_append (Nat.le_refl _)) hrest (Nat.lt_of_succ_lt hfuel)
  simp only [List.cons_append, List.nil_append] at hinter hinter' hdiff hdiff' hsymm hsymm'
  cases hskip with
  | swallowed => exact .failed
  | done =>
    refine tracks_none fun y hy => ?_
    obtain ⟨x, hx, hitems⟩ := Option.bind_eq_some_iff.1 hy
    exact not_readClassItems_of_spent (spent_of_readClassRange m hx) hitems
  | @next c rest hrest =>
    simp only
    refine (tracks_readClassRange m (.next (Nat.lt_succ_self rest.length))).bind ?_ ?_
    · rintro ⟨item, t⟩ ⟨_, t'⟩ ⟨rfl, ht⟩
      exact h.next _ _ ht hrest hfuel
    · rintro ⟨item, v⟩ hv y hy
      exact not_readClassItems_of_spent hv hy

theorem itemsAgree (hfuel : fuel ≤ fuel') : ItemsAgree E m fuel fuel' := by
  induction fuel generalizing fuel' with
  | zero => exact fun pending items _ hlen => absurd hlen (Nat.not_lt_zero _)
  | succ fuel ih =>
    obtain ⟨more, rfl⟩ := Nat.exists_eq_add_of_le' hfuel
    exact ItemsAgree.step (ih (Nat.le_add_left fuel more))

end Items

theorem tracks_readClass (m : Mode) (h : Trails n s s') :
    Tracks (Along (Trails n)) Never (readClass E m s) (readClass E m s') := by
  refine (tracks_readClassOpen m h).bind ?_ ?_
  · rintro ⟨negated, front, r⟩ ⟨_, _, r'⟩ ⟨rfl, rfl, hr⟩
    refine (itemsAgree (Nat.succ_le_succ hr.length_le_length) none front hr
      (Nat.lt_succ_self _)).next ?_
    rintro ⟨inner, t⟩ ⟨_, t'⟩ ⟨rfl, ht⟩
    dsimp only
    cases bracketed? E m negated inner with
    | none => exact .failed
    | some part => exact .read ⟨rfl, ht⟩
  · rintro ⟨negated, front, v⟩ hv x hx
    obtain ⟨y, hy, _⟩ := Option.bind_eq_some_iff.1 hx
    exact (not_readClassItems_of_spent hv hy).elim

end Pattern
end TaskGen
