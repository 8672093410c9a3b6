import TaskGen.Json.Reader
import TaskGen.Proofs.Fingerprint

/-!
What the compact text of a value tells of it.  A quoted string shows where it ends, and so does
every other text in front of a comma or a bracket.  So two values with the same text are the same,
if no two of their numbers are written alike.

Main statement: `Value.same_of_compact`.
-/

namespace TaskGen
namespace Json

/-! ### Strings -/

theorem hexValue?_hexDigit {n : Nat} (h : n < 16) : hexValue? (hexDigit n) = some n := by
  have hall : ∀ k < 16, hexValue? (hexDigit k) = some k := by decide
  exact hall n h

def piece (c : Char) : Piece :=
  if c = '\n' ∨ c = '\r' ∨ c = '\t' ∨ c.toNat = 8 ∨ c.toNat = 12 then .char c
  else if c.toNat < 32 then .unit c.toNat
  else .char c

theorem readPieces_unit {n : Nat} (h : n < 32) (s : List Char) :
    readPieces ('\\' :: 'u' :: '0' :: '0' :: hexDigit (n / 16) :: hexDigit (n % 16) :: s) =
      (readPieces s).map fun r => (.unit n :: r.1, r.2) := by
  have hzero : hexValue? '0' = some 0 := by decide
  have hhigh : hexValue? (hexDigit (n / 16)) = some (n / 16) := hexValue?_hexDigit (by omega)
  have hlow : hexValue? (hexDigit (n % 16)) = some (n % 16) := hexValue?_hexDigit (by omega)
  have hsum : (0 * 16 + 0) * 256 + (n / 16 * 16 + n % 16) = n := by omega
  simp only [readPieces, hzero, hhigh, hlow, Option.bind_eq_bind, Option.bind_some, hsum]
  cases readPieces s <;> rfl

theorem readPieces_char {c : Char} (quote : c ≠ '"') (slash : c ≠ '\\') (h : ¬ c.toNat < 32)
    (s : List Char) :
    readPieces (c :: s) = (readPieces s).map fun r => (.char c :: r.1, r.2) := by
  rw [readPieces]
  · rw [if_neg h]
    cases readPieces s <;> rfl
  · exact quote
  · intro _ _ _ _ _ heq
    exact absurd heq slash
  · intro _ _ heq
    exact absurd heq slash

theorem readPieces_escape (c : Char) (s : List Char) :
    readPieces (escape c ++ s) = (readPieces s).map fun r => (piece c :: r.1, r.2) := by
  unfold escape
  split
  case h_6 _ hquote hslash hnl hcr htab =>
    by_cases h8 : c.toNat = 8
    · have hc : c = Char.ofNat 8 := by rw [← h8, Char.ofNat_toNat]
      subst hc
      cases hs : readPieces s <;> simp [readPieces, piece, hs]
    · by_cases h12 : c.toNat = 12
      · have hc : c = Char.ofNat 12 := by rw [← h12, Char.ofNat_toNat]
        subst hc
        cases hs : readPieces s <;> simp [readPieces, piece, hs]
      · have hpiece : piece c = if c.toNat < 32 then .unit c.toNat else .char c :=
          if_neg (by simp only [not_or]; exact ⟨hnl, hcr, htab, h8, h12⟩)
        by_cases h32 : c.toNat < 32
        · rw [hpiece, if_neg h8, if_neg h12, if_pos h32, if_pos h32]
          exact readPieces_unit h32 s
        · rw [hpiece, if_neg h8, if_neg h12, if_neg h32, if_neg h32]
          exact readPieces_char hquote hslash h32 s
  all_goals cases hs : readPieces s <;> simp [readPieces, piece, hs]

theorem readPieces_quoted (s r : List Char) :
    readPieces (s.flatMap escape ++ '"' :: r) = some (s.map piece, r) := by
  induction s with
  | nil => simp [readPieces]
  | cons c s ih =>
    rw [List.flatMap_cons, List.append_assoc, readPieces_escape, ih]
    rfl

-- A unit looks at what follows it, even where it needs no partner.
theorem joinPieces_unit {n : Nat} (h : n < 32) (ps : List Piece) :
    joinPieces (.unit n :: ps) = (joinPieces ps).map (Char.ofNat n :: ·) := by
  have hlead : isLead n = false := by
    simp only [isLead, Bool.and_eq_false_iff, decide_eq_false_iff_not]
    omega
  have htrail : isTrail n = false := by
    simp only [isTrail, Bool.and_eq_false_iff, decide_eq_false_iff_not]
    omega
  cases ps with
  | nil => simp [joinPieces, hlead, htrail]
  | cons p ps =>
    cases p with
    | char c => simp [joinPieces, hlead, htrail, Function.comp_def]
    | unit m => simp [joinPieces, hlead, htrail]

theorem joinPieces_map_piece (s : List Char) : joinPieces (s.map piece) = some s := by
  induction s with
  | nil => rfl
  | cons c s ih =>
    rw [List.map_cons, piece]
    split
    · simp [joinPieces, ih]
    · split
      · rename_i hlow
        simp [joinPieces_unit hlow, ih]
      · simp [joinPieces, ih]

/-- A quoted text shows where it ends, and what was quoted. -/
theorem eq_of_quote {s t : String} {r r' : List Char} (text : quote s ++ r = quote t ++ r') :
    s = t ∧ r = r' := by
  simp only [quote, List.cons_append, List.append_assoc, List.nil_append, List.cons.injEq,
    true_and] at text
  have hread := congrArg readPieces text
  rw [readPieces_quoted, readPieces_quoted, Option.some.injEq, Prod.mk.injEq] at hread
  have hjoin := congrArg joinPieces hread.1
  rw [joinPieces_map_piece, joinPieces_map_piece, Option.some.injEq] at hjoin
  exact ⟨String.toList_injective hjoin, hread.2⟩

/-! ### First characters -/

/-- What a text stands for, judged by its first character. -/
inductive Kind where
  | null
  | bool (b : Bool)
  | number
  | string
  | array
  | object
  /-- No value starts like this: it follows a value or closes a container. -/
  | mark
  deriving DecidableEq

def kindOf (c : Char) : Kind :=
  match c with
  | 'n' => .null
  | 't' => .bool true
  | 'f' => .bool false
  | '"' => .string
  | '[' => .array
  | '\x7b' => .object
  | ',' => .mark
  | ']' => .mark
  | '\x7d' => .mark
  | _ => .number

def Value.kind : Value → Kind
  | .null => .null
  | .bool b => .bool b
  | .number _ => .number
  | .string _ => .string
  | .array _ => .array
  | .object _ => .object

theorem Value.kind_ne_mark (v : Value) : v.kind ≠ .mark := by
  cases v <;> simp [Value.kind]

/-- A value may end in front of this. -/
def Ends (r : List Char) : Prop := ∀ c ∈ r.head?, kindOf c = .mark

theorem Ends.nil : Ends [] := by simp [Ends]

theorem Ends.cons {c : Char} (h : kindOf c = .mark) (r : List Char) : Ends (c :: r) := by
  simpa [Ends] using h

/-! ### Numbers -/

def isNumeric (c : Char) : Bool := c.isDigit || c == '-' || c == '+' || c == '.' || c == 'e'

theorem kindOf_numeric {c : Char} (h : isNumeric c = true) : kindOf c = .number := by
  unfold kindOf
  split <;> first | rfl | exact absurd h (by decide)

def Numeric (s : String) : Prop := s.toList.all isNumeric = true

instance (s : String) : Decidable (Numeric s) :=
  inferInstanceAs (Decidable (s.toList.all isNumeric = true))

theorem numeric_iff {s : String} : Numeric s ↔ ∀ c ∈ s.toList, isNumeric c = true :=
  List.all_eq_true

theorem Numeric.append {s t : String} (hs : Numeric s) (ht : Numeric t) : Numeric (s ++ t) := by
  rw [Numeric, String.toList_append, List.all_append, hs, ht]
  rfl

theorem numeric_digits (n : Nat) : Numeric (toString n) := by
  rw [numeric_iff, Nat.toString_eq_ofList_toDigits, String.toList_ofList]
  intro c hc
  have hdigit : c.isDigit = true := Nat.isDigit_of_mem_toDigits (by decide) (by decide) hc
  simp [isNumeric, hdigit]

theorem numeric_int (n : Int) : Numeric (toString n) := by
  cases n with
  | ofNat k => exact numeric_digits k
  | negSucc k => exact Numeric.append (s := "-") (by decide) (numeric_digits (k + 1))

theorem numeric_zeros (n : Nat) : Numeric (Decimal.Layout.zeros n) := by
  rw [numeric_iff, Decimal.Layout.zeros, String.toList_ofList]
  intro c hc
  rw [List.eq_of_mem_replicate hc]
  decide

theorem Numeric.take {s : String} (h : Numeric s) (n : Nat) : Numeric (s.take n).toString :=
  numeric_iff.2 fun c hc => numeric_iff.1 h c (List.mem_of_mem_take (String.toList_copy_take ▸ hc))

theorem Numeric.drop {s : String} (h : Numeric s) (n : Nat) : Numeric (s.drop n).toString :=
  numeric_iff.2 fun c hc => numeric_iff.1 h c (List.mem_of_mem_drop (String.toList_copy_drop ▸ hc))

theorem numeric_writeSize (s : Decimal.Scientific) : Numeric (doubles.writeSize s) := by
  have hdigits := numeric_digits s.digits
  unfold Decimal.Layout.writeSize
  dsimp only
  split
  · split
    · split
      · exact (hdigits.append (by decide)).append (by decide)
      · exact (hdigits.append (numeric_zeros _)).append (by decide)
    · split
      · exact ((hdigits.take _).append (by decide)).append (hdigits.drop _)
      · exact (Numeric.append (by decide) (numeric_zeros _)).append hdigits
  · refine Numeric.append (Numeric.append (Numeric.append (Numeric.append (hdigits.take _) ?_)
      (by decide)) ?_) (numeric_digits _)
    · split
      · decide
      · exact Numeric.append (by decide) (hdigits.drop _)
    · split <;> decide

theorem writeSize_ne_empty (s : Decimal.Scientific) : doubles.writeSize s ≠ "" := by
  have hmark : doubles.wholeMark ≠ "" := by decide
  unfold Decimal.Layout.writeSize
  dsimp only
  split
  · split
    · simp [hmark]
    · split <;> simp
  · simp

theorem numeric_or_named (x : Float) :
    (Numeric (doubles.write x) ∧ doubles.write x ≠ "") ∨
      doubles.write x = "NaN" ∨ doubles.write x = "-inf" ∨ doubles.write x = "inf" := by
  unfold Decimal.Layout.write
  split
  · refine .inl ⟨Numeric.append ?_ (numeric_writeSize _), ?_⟩
    · split <;> decide
    · simp [writeSize_ne_empty]
  · right
    split
    · exact .inl rfl
    · split
      · exact .inr (.inl rfl)
      · exact .inr (.inr rfl)

theorem digits_ne_empty (n : Nat) : toString n ≠ "" := by
  rw [Nat.toString_eq_ofList_toDigits]
  simp

theorem int_ne_empty (n : Int) : toString n ≠ "" := by
  cases n with
  | ofNat k => exact digits_ne_empty k
  | negSucc k =>
    show "-" ++ toString (k + 1) ≠ ""
    simp

theorem Number.chars_kinds (n : Number) :
    (∃ c cs, n.chars = c :: cs ∧ kindOf c = .number) ∧ ∀ c ∈ n.chars, kindOf c ≠ .mark := by
  have hnumeric {s : String} (h : Numeric s) (hne : s ≠ "") :
      (∃ c cs, s.toList = c :: cs ∧ kindOf c = .number) ∧ ∀ c ∈ s.toList, kindOf c ≠ .mark := by
    obtain ⟨c, cs, hcons⟩ : ∃ c cs, s.toList = c :: cs :=
      List.exists_cons_of_ne_nil (by simpa using hne)
    refine ⟨⟨c, cs, hcons, kindOf_numeric (numeric_iff.1 h c (by simp [hcons]))⟩, fun d hd => ?_⟩
    simp [kindOf_numeric (numeric_iff.1 h d hd)]
  cases n with
  | int n => exact hnumeric (numeric_int n) (int_ne_empty n)
  | float x =>
    rw [Number.chars]
    rcases numeric_or_named x with ⟨h, hne⟩ | h | h | h
    · exact hnumeric h hne
    all_goals
      rw [h]
      exact ⟨⟨_, _, rfl, rfl⟩, by simp [kindOf]⟩

/-- The text of a number ends where it has to. -/
theorem Number.chars_of_append {a b : Number} {r r' : List Char} (hr : Ends r) (hr' : Ends r')
    (text : a.chars ++ r = b.chars ++ r') : a.chars = b.chars ∧ r = r' := by
  have htake {n : Number} {t : List Char} (ht : Ends t) :
      (n.chars ++ t).takeWhile (fun c => kindOf c ≠ .mark) = n.chars := by
    have hrest : t.takeWhile (fun c => kindOf c ≠ .mark) = [] := by
      cases t with
      | nil => rfl
      | cons c t => simp [ht c rfl]
    rw [List.takeWhile_append_of_pos (fun c hc => decide_eq_true (n.chars_kinds.2 c hc)), hrest,
      List.append_nil]
  have hchars : a.chars = b.chars := by
    rw [← htake (n := a) hr, text, htake hr']
  rw [hchars] at text
  exact ⟨hchars, List.append_cancel_left text⟩

/-- No number on the one side is written like a different one on the other side. -/
def PrintedApart (as bs : List Number) : Prop :=
  ∀ a ∈ as, ∀ b ∈ bs, a.chars = b.chars → a.same b = true

instance (as bs : List Number) : Decidable (PrintedApart as bs) :=
  inferInstanceAs (Decidable (∀ a ∈ as, ∀ b ∈ bs, a.chars = b.chars → a.same b = true))

theorem PrintedApart.mono {as as' bs bs' : List Number} (h : PrintedApart as' bs') (ha : as ⊆ as')
    (hb : bs ⊆ bs') : PrintedApart as bs :=
  fun a hma b hmb => h a (ha hma) b (hb hmb)

mutual
def Value.numbers : Value → List Number
  | .number n => [n]
  | .array items => itemNumbers items
  | .object members => memberNumbers members
  | _ => []

def itemNumbers : List Value → List Number
  | [] => []
  | v :: rest => v.numbers ++ itemNumbers rest

def memberNumbers : List (String × Value) → List Number
  | [] => []
  | (_, v) :: rest => v.numbers ++ memberNumbers rest
end

/-! ### Values -/

theorem Value.chars_kind (v : Value) : ∃ c cs, v.chars = c :: cs ∧ kindOf c = v.kind := by
  cases v with
  | null => exact ⟨_, _, rfl, rfl⟩
  | bool b => cases b <;> exact ⟨_, _, rfl, rfl⟩
  | number n => exact n.chars_kinds.1
  | string s => exact ⟨_, _, rfl, rfl⟩
  | array items => exact ⟨_, _, rfl, rfl⟩
  | object members => exact ⟨_, _, rfl, rfl⟩

theorem Value.kind_of_chars {v w : Value} {r r' : List Char}
    (text : v.chars ++ r = w.chars ++ r') : v.kind = w.kind := by
  obtain ⟨c, cs, hv, hc⟩ := v.chars_kind
  obtain ⟨d, ds, hw, hd⟩ := w.chars_kind
  rw [hv, hw] at text
  rw [← hc, ← hd, (List.cons.inj text).1]

theorem Value.chars_append_ne (v : Value) {c : Char} (h : kindOf c = .mark) {r r' : List Char} :
    v.chars ++ r ≠ c :: r' := by
  intro text
  obtain ⟨d, ds, hv, hd⟩ := v.chars_kind
  rw [hv] at text
  rw [(List.cons.inj text).1, h] at hd
  exact v.kind_ne_mark hd.symm

/-- What follows an item: nothing, or a comma and the other items. -/
def itemTail : List Value → List Char
  | [] => []
  | v :: rest => ',' :: itemChars (v :: rest)

theorem itemChars_cons (v : Value) (rest : List Value) :
    itemChars (v :: rest) = v.chars ++ itemTail rest := by
  cases rest with
  | nil => simp [itemChars, itemTail]
  | cons w rest => rw [itemChars_cons_cons, itemTail]

def memberTail : List (String × Value) → List Char
  | [] => []
  | p :: rest => ',' :: memberChars (p :: rest)

theorem memberChars_cons (p : String × Value) (rest : List (String × Value)) :
    memberChars (p :: rest) = quote p.1 ++ ':' :: (p.2.chars ++ memberTail rest) := by
  cases rest with
  | nil => simp [memberChars, memberTail]
  | cons q rest => rw [memberChars_cons_cons, memberTail]

theorem ends_itemTail (rest : List Value) (r : List Char) : Ends (itemTail rest ++ ']' :: r) := by
  cases rest <;> exact Ends.cons rfl _

theorem ends_memberTail (rest : List (String × Value)) (r : List Char) :
    Ends (memberTail rest ++ '\x7d' :: r) := by
  cases rest <;> exact Ends.cons rfl _

/-- An empty array does not begin like one with items. -/
theorem itemTails_of_itemChars {as bs : List Value} {r r' : List Char}
    (text : itemChars as ++ ']' :: r = itemChars bs ++ ']' :: r') :
    itemTail as ++ ']' :: r = itemTail bs ++ ']' :: r' := by
  cases as with
  | nil =>
    cases bs with
    | nil => exact text
    | cons b bs =>
      rw [itemChars_cons, List.append_assoc] at text
      exact absurd text.symm (b.chars_append_ne rfl)
  | cons a as =>
    cases bs with
    | nil =>
      rw [itemChars_cons, List.append_assoc] at text
      exact absurd text (a.chars_append_ne rfl)
    | cons b bs => exact congrArg (',' :: ·) text

theorem memberTails_of_memberChars {as bs : List (String × Value)} {r r' : List Char}
    (text : memberChars as ++ '\x7d' :: r = memberChars bs ++ '\x7d' :: r') :
    memberTail as ++ '\x7d' :: r = memberTail bs ++ '\x7d' :: r' := by
  cases as with
  | nil =>
    cases bs with
    | nil => exact text
    | cons q bs =>
      rw [memberChars_cons] at text
      exact absurd (List.cons.inj text).1 (by decide)
  | cons p as =>
    cases bs with
    | nil =>
      rw [memberChars_cons] at text
      exact absurd (List.cons.inj text).1 (by decide)
    | cons q bs => exact congrArg (',' :: ·) text

-- Items and members are compared by what follows the one before, where the first character
-- tells whether there is another one.
mutual
theorem Value.same_of_chars {v w : Value} (apart : PrintedApart v.numbers w.numbers)
    {r r' : List Char} (hr : Ends r) (hr' : Ends r') (text : v.chars ++ r = w.chars ++ r') :
    v.same w = true ∧ r = r' := by
  have hkind := Value.kind_of_chars text
  cases v with
  | null =>
    cases w with
    | null => exact ⟨rfl, List.append_cancel_left text⟩
    | _ => cases hkind
  | bool a =>
    cases w with
    | bool b =>
      cases hkind
      exact ⟨beq_self_eq_true a, List.append_cancel_left text⟩
    | _ => cases hkind
  | number a =>
    cases w with
    | number b =>
      obtain ⟨hchars, hrest⟩ := Number.chars_of_append hr hr' text
      exact ⟨apart a (List.mem_singleton_self a) b (List.mem_singleton_self b) hchars, hrest⟩
    | _ => cases hkind
  | string a =>
    cases w with
    | string b =>
      obtain ⟨rfl, hrest⟩ := eq_of_quote text
      exact ⟨beq_self_eq_true a, hrest⟩
    | _ => cases hkind
  | array as =>
    cases w with
    | array bs =>
      simp only [Value.chars, List.cons_append, List.append_assoc, List.nil_append,
        List.cons.injEq] at text
      exact sameItems_of_tails apart (itemTails_of_itemChars text.2)
    | _ => cases hkind
  | object as =>
    cases w with
    | object bs =>
      simp only [Value.chars, List.cons_append, List.append_assoc, List.nil_append,
        List.cons.injEq] at text
      exact sameMembers_of_tails apart (memberTails_of_memberChars text.2)
    | _ => cases hkind

theorem sameItems_of_tails {as bs : List Value}
    (apart : PrintedApart (itemNumbers as) (itemNumbers bs)) {r r' : List Char}
    (text : itemTail as ++ ']' :: r = itemTail bs ++ ']' :: r') :
    sameItems as bs = true ∧ r = r' := by
  cases as with
  | nil =>
    cases bs with
    | nil => exact ⟨rfl, (List.cons.inj text).2⟩
    | cons b bs => exact absurd (List.cons.inj text).1 (by decide)
  | cons a as =>
    cases bs with
    | nil => exact absurd (List.cons.inj text).1 (by decide)
    | cons b bs =>
      have hitems : itemChars (a :: as) ++ ']' :: r = itemChars (b :: bs) ++ ']' :: r' :=
        (List.cons.inj text).2
      rw [itemChars_cons, itemChars_cons, List.append_assoc, List.append_assoc] at hitems
      obtain ⟨hab, hrest⟩ := Value.same_of_chars
        (apart.mono (List.subset_append_left _ _) (List.subset_append_left _ _))
        (ends_itemTail as r) (ends_itemTail bs r') hitems
      rw [sameItems, hab, Bool.true_and]
      exact sameItems_of_tails
        (apart.mono (List.subset_append_right _ _) (List.subset_append_right _ _)) hrest

theorem sameMembers_of_tails {as bs : List (String × Value)}
    (apart : PrintedApart (memberNumbers as) (memberNumbers bs)) {r r' : List Char}
    (text : memberTail as ++ '\x7d' :: r = memberTail bs ++ '\x7d' :: r') :
    sameMembers as bs = true ∧ r = r' := by
  cases as with
  | nil =>
    cases bs with
    | nil => exact ⟨rfl, (List.cons.inj text).2⟩
    | cons q bs => exact absurd (List.cons.inj text).1 (by decide)
  | cons p as =>
    cases bs with
    | nil => exact absurd (List.cons.inj text).1 (by decide)
    | cons q bs =>
      obtain ⟨k, a⟩ := p
      obtain ⟨l, b⟩ := q
      have hmembers : memberChars ((k, a) :: as) ++ '\x7d' :: r =
          memberChars ((l, b) :: bs) ++ '\x7d' :: r' := (List.cons.inj text).2
      simp only [memberChars_cons, List.append_assoc, List.cons_append] at hmembers
      obtain ⟨rfl, hcolon⟩ := eq_of_quote hmembers
      obtain ⟨hab, hrest⟩ := Value.same_of_chars
        (apart.mono (List.subset_append_left _ _) (List.subset_append_left _ _))
        (ends_memberTail as r) (ends_memberTail bs r') (List.cons.inj hcolon).2
      rw [sameMembers, hab, beq_self_eq_true, Bool.true_and]
      exact sameMembers_of_tails
        (apart.mono (List.subset_append_right _ _) (List.subset_append_right _ _)) hrest
end

theorem Value.same_of_compact {v w : Value} (apart : PrintedApart v.numbers w.numbers)
    (text : v.compact = w.compact) : v.same w = true := by
  have hchars : v.chars ++ [] = w.chars ++ [] := congrArg (· ++ []) (String.ofList_injective text)
  exact (Value.same_of_chars apart Ends.nil Ends.nil hchars).1

end Json
end TaskGen
