import TaskGen.Proofs.FileTree.Contents

/-!
What operations on files change.  Making a directory makes those that the path leads through, and
writing or copying a file changes the place of the file.  Paths with the same steps lead to the same
place.

Main statements: `confined_makeDirs`, `of_copy`.
-/

namespace TaskGen

namespace Path

theorem slash_notMem_of_mem_splitSlashes {s part : List Char} (h : part ∈ splitSlashes s) :
    '/' ∉ part := by
  induction s generalizing part with
  | nil =>
    rw [splitSlashes, List.mem_singleton] at h
    rw [h]
    exact List.not_mem_nil
  | cons c s ih =>
    rw [splitSlashes] at h
    split at h
    · rcases List.mem_cons.1 h with rfl | hrest
      · exact List.not_mem_nil
      · exact ih hrest
    · next hc =>
      split at h
      · next hnil => exact (splitSlashes_ne_nil s hnil).elim
      · next first more hsplit =>
        rw [hsplit] at ih
        rcases List.mem_cons.1 h with rfl | hrest
        · rw [List.mem_cons, not_or]
          exact ⟨Ne.symm hc, ih List.mem_cons_self⟩
        · exact ih (List.mem_cons_of_mem _ hrest)

theorem ne_slash_of_mem_parts {p : Path} {part : String} (h : part ∈ p.parts) : part ≠ "/" := by
  rintro rfl
  obtain ⟨chars, hchars, heq⟩ := List.mem_map.1 h
  refine slash_notMem_of_mem_splitSlashes hchars ?_
  rw [← String.toList_ofList (l := chars), heq]
  decide

def moves (p : Path) : List String := p.parts.filter fun part => part ≠ "" ∧ part ≠ "."

theorem mem_moves {p : Path} {name : String} (h : name ∈ p.moves) :
    name ≠ "/" ∧ name ≠ "." := by
  obtain ⟨hpart, hname⟩ := List.mem_filter.1 h
  exact ⟨ne_slash_of_mem_parts hpart, (of_decide_eq_true hname).2⟩

/-- The steps of a path begin at the top, where one is, or with a name. -/
theorem steps_eq (p : Path) : ∃ front, p.steps = front ++ p.moves ∧
    (p.isAbsolute = true ∧ front = ["/"] ∨
      p.isAbsolute = false ∧ (front = ["."] ∨ front = [])) := by
  cases habsolute : p.isAbsolute with
  | true => exact ⟨["/"], by simp [steps, moves, habsolute], .inl ⟨rfl, rfl⟩⟩
  | false =>
    by_cases hdot : (p.parts.head? == some ".") = true
    · exact ⟨["."], by simp [steps, moves, habsolute, hdot], .inr ⟨rfl, .inl rfl⟩⟩
    · exact ⟨[], by simp [steps, moves, habsolute, hdot], .inr ⟨rfl, .inr rfl⟩⟩

theorem filter_steps (p : Path) : (p.steps.filter fun s => s ≠ "/" ∧ s ≠ ".") = p.moves := by
  obtain ⟨front, hsteps, hfront⟩ := p.steps_eq
  have hmoves : (p.moves.filter fun s => s ≠ "/" ∧ s ≠ ".") = p.moves :=
    List.filter_eq_self.2 fun name hname => by simpa using mem_moves hname
  rw [hsteps, List.filter_append, hmoves]
  rcases hfront with ⟨_, rfl⟩ | ⟨_, rfl | rfl⟩
  · rfl
  · rfl
  · rfl

theorem isAbsolute_iff (p : Path) : p.isAbsolute = true ↔ p.steps.head? = some "/" := by
  obtain ⟨front, hsteps, hfront⟩ := p.steps_eq
  rw [hsteps]
  rcases hfront with ⟨habsolute, rfl⟩ | ⟨habsolute, rfl | rfl⟩
  · simp [habsolute]
  · simp [habsolute]
  · rw [habsolute, List.nil_append]
    refine ⟨fun h => (Bool.false_ne_true h).elim, fun hhead => ?_⟩
    exact ((mem_moves (List.mem_of_mem_head? hhead)).1 rfl).elim

end Path

namespace FileTree

open TaskGen.Path

variable {t t' t'' : FileTree} {p q : Path} {loc : Location}

/-! ### Paths with the same steps -/

theorem follow_filter_dot (loc : Location) (names : List String) :
    follow loc (names.filter (· ≠ ".")) = follow loc names := by
  induction names generalizing loc with
  | nil => rfl
  | cons name names ih =>
    by_cases hdot : name = "."
    · rw [List.filter_cons_of_neg (by simp [hdot]), follow, if_pos hdot, ih]
    · rw [List.filter_cons_of_pos (by simp [hdot]), follow, follow, if_neg hdot, if_neg hdot,
        ih, ih]

theorem placeOf_eq_moves (here : Location) (p : Path) :
    placeOf here p = follow (start here p) p.moves := by
  have hmoves : p.moves = (trail p).filter (· ≠ ".") := by
    rw [moves, trail, List.filter_filter]
    exact List.filter_congr fun part _ => by simp [Bool.and_comm]
  rw [placeOf_eq_follow, hmoves, follow_filter_dot]
  rfl

theorem placeOf_eq_of_same (h : p.same q = true) (here : Location) :
    placeOf here p = placeOf here q := by
  have hsteps : p.steps = q.steps := by simpa [Path.same] using h
  have habsolute : p.isAbsolute = q.isAbsolute := by
    rw [Bool.eq_iff_iff, isAbsolute_iff, isAbsolute_iff, hsteps]
  rw [placeOf_eq_moves, placeOf_eq_moves, start, start, habsolute, ← filter_steps p,
    ← filter_steps q, hsteps]

/-! ### Ways -/

/-- The places that a path leads through, its own included. -/
def OnWay (here : Location) (p : Path) (loc : Location) : Prop :=
  ∃ front, front <+: names p ∧ loc = follow (start here p) front

theorem placeOf_join_name (here : Location) (p : Path) {name : String} (h : IsName name) :
    placeOf here (p.join name) = placeOf here p ++ [name] := by
  have hnames : ∀ q ∈ [name], IsName q := fun q hq => by rwa [List.mem_singleton.1 hq]
  exact placeOf_descend hnames here p

/-- With one name more there is one place more on the way. -/
theorem onWay_join {here : Location} {name : String} (isName : IsName name)
    (h : OnWay here (p.join name) loc) : OnWay here p loc ∨ loc = placeOf here p ++ [name] := by
  obtain ⟨front, hfront, rfl⟩ := h
  have hstart : start here (p.join name) = start here p := by
    rw [start, start, isAbsolute_join p isName.toIsStep]
  rw [names_join p isName.toIsStep, List.prefix_concat_iff] at hfront
  rcases hfront with rfl | hfront
  · refine .inr ?_
    rw [← placeOf_join_name here p isName, placeOf, names_join p isName.toIsStep]
    rfl
  · have hnames : trail p <+: names p := by
      rcases names_eq_trail p with hnames | hnames
      · rw [hnames]
      · rw [hnames]
        exact List.prefix_append _ _
    exact .inl ⟨front, hfront.trans hnames, by rw [hstart]⟩

/-- Nothing is changed outside some places, except that on a way there may be directories now where
there was nothing. -/
structure Confined (inside way : Location → Prop) (t t' : FileTree) : Prop where
  here : t'.here = t.here
  directory : ∀ loc, t.get? loc = some .directory → t'.get? loc = some .directory
  outside : ∀ loc, ¬ inside loc → t'.get? loc = t.get? loc ∨
    way loc ∧ t.get? loc = none ∧ t'.get? loc = some .directory

section
variable {inside way : Location → Prop}

theorem Confined.refl (inside way : Location → Prop) (t : FileTree) : Confined inside way t t :=
  ⟨rfl, fun _ h => h, fun _ _ => .inl rfl⟩

theorem Confined.trans (h : Confined inside way t t') (h' : Confined inside way t' t'') :
    Confined inside way t t'' where
  here := h'.here.trans h.here
  directory loc hd := h'.directory loc (h.directory loc hd)
  outside loc hloc := by
    rcases h.outside loc hloc, h'.outside loc hloc with
      ⟨hsame | ⟨hway, hnone, hnew⟩, hsame' | ⟨hway', hnone', hnew'⟩⟩
    · exact .inl (hsame'.trans hsame)
    · exact .inr ⟨hway', hsame ▸ hnone', hnew'⟩
    · exact .inr ⟨hway, hnone, hsame'.trans hnew⟩
    · rw [hnew] at hnone'
      cases hnone'

theorem Confined.mono {inside' way' : Location → Prop} (h : Confined inside way t t')
    (hinside : ∀ loc, inside loc → inside' loc) (hway : ∀ loc, way loc → inside' loc ∨ way' loc) :
    Confined inside' way' t t' where
  here := h.here
  directory := h.directory
  outside loc hloc := by
    rcases h.outside loc fun hin => hloc (hinside loc hin) with hsame | ⟨hon, hnone, hnew⟩
    · exact .inl hsame
    · exact .inr ⟨(hway loc hon).resolve_left hloc, hnone, hnew⟩

theorem Touches.confined (h : Touches inside t t') : Confined inside way t t' :=
  ⟨h.here, h.directory, fun loc hloc => .inl (h.same loc hloc)⟩

/-- A file outside is there exactly if it was there before. -/
theorem Confined.file_iff (h : Confined inside way t t') (hloc : ¬ inside loc)
    (bytes : ByteArray) : t'.get? loc = some (.file bytes) ↔ t.get? loc = some (.file bytes) := by
  rcases h.outside loc hloc with hsame | ⟨_, hnone, hnew⟩
  · rw [hsame]
  · rw [hnone, hnew]
    simp

theorem Confined.get?_eq (h : Confined inside way t t') (hloc : ¬ inside loc) (off : ¬ way loc) :
    t'.get? loc = t.get? loc :=
  (h.outside loc hloc).resolve_right fun hnew => off hnew.1

end

/-! ### Making directories -/

theorem confined_ensure {way : Location → Prop} (t : FileTree) (hloc : way loc) :
    Confined (fun _ => False) way t (t.ensure loc) where
  here := (touches_ensure t loc).here
  directory := (touches_ensure t loc).directory
  outside other _ := by
    by_cases hother : other = loc
    · subst hother
      cases hget : t.get? other with
      | none =>
        exact .inr ⟨hloc, rfl, get?_ensure fun bytes hfile => by rw [hget] at hfile; cases hfile⟩
      | some found =>
        refine .inl ?_
        rw [ensure, hget]
        exact hget
    · exact .inl ((touches_ensure t loc).same other hother)

theorem confined_makeWay (t : FileTree) (loc : Location) (names : List String) :
    Confined (fun _ => False) (fun place => ∃ front, front <+: names ∧ place = follow loc front) t
      (t.makeWay loc names).1 := by
  induction names generalizing t loc with
  | nil =>
    rcases passable_or_file t loc with hfree | ⟨bytes, hfile⟩
    · rw [makeWay_nil hfree]
      exact confined_ensure t ⟨[], List.nil_prefix, rfl⟩
    · rw [makeWay_of_file hfile]
      exact .refl _ _ t
  | cons name names ih =>
    rcases passable_or_file t loc with hfree | ⟨bytes, hfile⟩
    · have hhere : Confined (fun _ => False)
          (fun place => ∃ front, front <+: name :: names ∧ place = follow loc front)
          t (t.ensure loc) := confined_ensure t ⟨[], List.nil_prefix, rfl⟩
      -- The rest of the way goes on from the place that the name leads to.
      have hon : ∀ next, (∀ front, follow loc (name :: front) = follow next front) →
          Confined (fun _ => False)
            (fun place => ∃ front, front <+: name :: names ∧ place = follow loc front)
            t ((t.ensure loc).makeWay next names).1 := by
        intro next hnext
        refine hhere.trans ((ih (t.ensure loc) next).mono (fun _ h => h) ?_)
        rintro place ⟨front, hfront, rfl⟩
        exact .inr ⟨name :: front, List.cons_prefix_cons.2 ⟨rfl, hfront⟩, (hnext front).symm⟩
      rw [makeWay_cons hfree]
      split
      · next hdot => exact hon loc fun front => by rw [follow, if_pos hdot]
      · next hdot =>
        split
        · next hdots => exact hon _ fun front => by rw [follow, if_neg hdot, if_pos hdots]
        · next hdots =>
          split
          · exact hhere
          · exact hon _ fun front => by rw [follow, if_neg hdot, if_neg hdots]
    · rw [makeWay_of_file hfile]
      exact .refl _ _ t

/-- Whether or not the directory can be made, what is made is on the way to it. -/
theorem confined_makeDirs (t : FileTree) (p : Path) :
    Confined (fun _ => False) (OnWay t.here p) t (t.makeDirs p).1 := by
  rw [makeDirs]
  split
  · exact .refl _ _ t
  · exact confined_makeWay t (start t.here p) (names p)

/-- In a directory that exists no other directory is on the way. -/
theorem DirectoryAt.touches_makeDirs {name : String} (h : DirectoryAt t p loc)
    (isName : IsName name) (fits : Fits name) :
    Touches (· = loc ++ [name]) t (t.makeDirs (p.join name)).1 := by
  rw [makeDirs_join h.makeDirs h isName fits.plain,
    makeWay_cons (passable_of_directory h.directory), if_neg isName.ne_dot, if_neg isName.ne_dots,
    if_neg (Nat.not_lt.2 fits.short), ensure_of_directory h.directory]
  rcases passable_or_file t (loc ++ [name]) with hfree | ⟨bytes, hfile⟩
  · rw [makeWay_nil hfree]
    exact touches_ensure t _
  · rw [makeWay_of_file hfile]
    exact .refl _ t

/-! ### Writing and copying -/

def Holds (t : FileTree) (p : Path) (bytes : ByteArray) : Prop :=
  t.get? (placeOf t.here p) = some (.file bytes)

theorem holds_of_read {bytes : ByteArray} (h : t.read p = .ok bytes) : t.Holds p bytes := by
  obtain ⟨place, hlocate, hget⟩ := exists_of_read h
  rw [Holds, ← locate_eq_placeOf hlocate]
  exact hget

theorem touches_of_write {bytes : ByteArray} (h : t.write p bytes = .ok t') :
    Touches (· = placeOf t.here p) t t' := by
  obtain ⟨place, hlocate, hfree, rfl⟩ := exists_of_write h
  rw [← locate_eq_placeOf hlocate]
  exact touches_put_file hfree bytes

/-- A file that is copied to another place is read there afterwards. -/
theorem of_copy (h : t.copy p q = .ok t') :
    Touches (· = placeOf t.here q) t t' ∧ ∃ bytes, t.read p = .ok bytes ∧
      (placeOf t.here p ≠ placeOf t.here q → t'.read q = .ok bytes) := by
  cases hread : t.read p with
  | error e => simp [copy, hread, bind, Except.bind] at h
  | ok bytes =>
    obtain ⟨source, hsource, _⟩ := exists_of_read hread
    cases htarget : t.locate q with
    | error e => simp [copy, hread, hsource, htarget, bind, Except.bind] at h
    | ok target =>
      simp only [copy, hread, hsource, htarget, bind, Except.bind] at h
      refine ⟨touches_of_write h, bytes, rfl, fun hne => ?_⟩
      rw [← locate_eq_placeOf hsource, ← locate_eq_placeOf htarget] at hne
      rw [if_neg (by simpa using hne)] at h
      exact (of_write h).2

end FileTree
end TaskGen
