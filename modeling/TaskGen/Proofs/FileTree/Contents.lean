import TaskGen.Proofs.Directories

/-!
What can be done with a name in a directory that exists.  A directory can be made unless there is a
file, and a file can be written unless there is a directory, as long as the name itself is one that
a file can have.
-/

namespace TaskGen

structure Fits (q : String) : Prop where
  short : q.utf8ByteSize ≤ FileTree.longestName
  plain : Char.ofNat 0 ∉ q.toList

namespace Path

variable {q : String}

/-- A path with one name more, character by character. -/
theorem exists_toList_join (p : Path) (h : IsStep q) :
    ∃ slash, (slash = [] ∨ slash = ['/']) ∧
      (p.join q).text.toList = p.text.toList ++ slash ++ q.toList := by
  rw [join, if_neg (by simp [isAbsolute_mk_of_isStep h])]
  split
  · exact ⟨[], .inl rfl, by simp⟩
  · exact ⟨['/'], .inr rfl, by simp⟩

theorem text_join_ne_empty (p : Path) (h : IsStep q) : (p.join q).text.isEmpty = false := by
  obtain ⟨slash, _, htext⟩ := exists_toList_join p h
  have hne : (p.join q).text ≠ "" := by
    intro heq
    rw [heq] at htext
    have hq : q.toList = [] := (List.append_eq_nil_iff.1 htext.symm).2
    exact h.nonempty (String.toList_inj.1 (by rw [hq]; rfl))
  simpa using hne

theorem contains_zero_join (p : Path) (h : IsStep q) :
    (p.join q).text.toList.contains (Char.ofNat 0) =
      (p.text.toList.contains (Char.ofNat 0) || q.toList.contains (Char.ofNat 0)) := by
  obtain ⟨slash, hslash, htext⟩ := exists_toList_join p h
  have hplain : slash.contains (Char.ofNat 0) = false := by
    rcases hslash with rfl | rfl
    · rfl
    · decide
  rw [htext, List.contains_append, List.contains_append, hplain, Bool.or_false]

end Path

namespace FileTree

open TaskGen.Path

variable {t t' : FileTree} {p : Path} {loc : Location} {q : String}

/-! ### Following names -/

theorem walk_append (t : FileTree) (loc : Location) (a b : List String) :
    t.walk loc (a ++ b) = t.walk loc a >>= fun place => t.walk place b := by
  induction a generalizing loc with
  | nil => rfl
  | cons name a ih =>
    rw [List.cons_append, walk, walk]
    split
    · rfl
    · rfl
    · split
      · exact ih loc
      · split
        · exact ih loc.dropLast
        · split
          · rfl
          · exact ih (loc ++ [name])

def start (here : Location) (p : Path) : Location := if p.isAbsolute then [] else here

theorem names_eq_trail (p : Path) : names p = trail p ∨ names p = trail p ++ ["."] := by
  unfold names trail
  dsimp only
  split
  · exact .inr rfl
  · exact .inl (List.append_nil _)

structure DirectoryAt (t : FileTree) (p : Path) (loc : Location) : Prop where
  locate : t.locate p = .ok loc
  directory : t.get? loc = some .directory

theorem DirectoryAt.plain (h : DirectoryAt t p loc) :
    p.text.toList.contains (Char.ofNat 0) = false := by
  have hlocate := h.locate
  rw [FileTree.locate] at hlocate
  split at hlocate
  · cases hlocate
  · split at hlocate
    · cases hlocate
    · next hplain => exact Bool.eq_false_iff.2 hplain

theorem DirectoryAt.walk_trail (h : DirectoryAt t p loc) :
    t.walk (start t.here p) (trail p) = .ok loc := by
  have hwalk : t.walk (start t.here p) (names p) = .ok loc := by
    have hlocate := h.locate
    rw [FileTree.locate] at hlocate
    split at hlocate
    · cases hlocate
    · split at hlocate
      · cases hlocate
      · exact hlocate
  rcases names_eq_trail p with hnames | hnames
  · rwa [hnames] at hwalk
  · rw [hnames, walk_append] at hwalk
    cases htrail : t.walk (start t.here p) (trail p) with
    | error _ =>
      rw [htrail] at hwalk
      cases hwalk
    | ok place =>
      rw [htrail] at hwalk
      -- The dot leads no further.
      change t.walk place ["."] = .ok loc at hwalk
      rw [walk] at hwalk
      split at hwalk
      · cases hwalk
      · cases hwalk
      · exact hwalk

theorem DirectoryAt.placeOf (h : DirectoryAt t p loc) : loc = placeOf t.here p :=
  locate_eq_placeOf h.locate

theorem DirectoryAt.locate_join (h : DirectoryAt t p loc) (name : IsName q) (fits : Fits q) :
    t.locate (p.join q) = .ok (loc ++ [q]) := by
  have hplain : (p.join q).text.toList.contains (Char.ofNat 0) = false := by
    rw [contains_zero_join p name.toIsStep, h.plain, Bool.false_or]
    simpa using fits.plain
  rw [FileTree.locate, text_join_ne_empty p name.toIsStep, hplain, isAbsolute_join p name.toIsStep,
    names_join p name.toIsStep]
  show t.walk (start t.here p) (trail p ++ [q]) = _
  rw [walk_append, h.walk_trail]
  show t.walk loc [q] = _
  rw [walk, h.directory]
  simp only [name.ne_dot, name.ne_dots, if_false, Nat.not_lt.2 fits.short]
  rfl

theorem DirectoryAt.read_join (h : DirectoryAt t p loc) (name : IsName q) (fits : Fits q)
    {bytes : ByteArray} (file : t.get? (loc ++ [q]) = some (.file bytes)) :
    t.read (p.join q) = .ok bytes :=
  read_of_get? (h.locate_join name fits) file

theorem DirectoryAt.write_join (h : DirectoryAt t p loc) (name : IsName q) (fits : Fits q)
    (free : t.get? (loc ++ [q]) ≠ some .directory) (bytes : ByteArray) :
    t.write (p.join q) bytes = .ok (t.put (loc ++ [q]) (.file bytes)) := by
  simp only [write, h.locate_join name fits, bind, Except.bind]

theorem DirectoryAt.write_join_refused (h : DirectoryAt t p loc) (name : IsName q) (fits : Fits q)
    (directory : t.get? (loc ++ [q]) = some .directory) (bytes : ByteArray) :
    t.write (p.join q) bytes = .error .refused := by
  simp only [write, h.locate_join name fits, directory, bind, Except.bind]

/-! ### Changes in some places -/

/-- Nothing is changed but in some places, and directories stay there too. -/
structure Touches (places : Location → Prop) (t t' : FileTree) : Prop where
  here : t'.here = t.here
  directory : ∀ loc, t.get? loc = some .directory → t'.get? loc = some .directory
  same : ∀ loc, ¬ places loc → t'.get? loc = t.get? loc

section
variable {places : Location → Prop} {t'' : FileTree}

theorem Touches.refl (places : Location → Prop) (t : FileTree) : Touches places t t :=
  ⟨rfl, fun _ h => h, fun _ _ => rfl⟩

theorem Touches.trans (h : Touches places t t') (h' : Touches places t' t'') :
    Touches places t t'' where
  here := h'.here.trans h.here
  directory loc hd := h'.directory loc (h.directory loc hd)
  same loc hloc := (h'.same loc hloc).trans (h.same loc hloc)

theorem Touches.mono {more : Location → Prop} (h : Touches places t t')
    (hmore : ∀ loc, places loc → more loc) : Touches more t t' where
  here := h.here
  directory := h.directory
  same loc hloc := h.same loc fun hplace => hloc (hmore loc hplace)

theorem Touches.grown (h : Touches places t t') : Grown (fun loc => ¬ places loc) t t' where
  here := h.here
  directory := h.directory
  kept loc _ hloc he := (h.same loc hloc).trans he

theorem Touches.directoryAt (h : Touches places t t') (hd : DirectoryAt t p loc) :
    DirectoryAt t' p loc :=
  ⟨h.grown.locate hd.locate, h.directory loc hd.directory⟩

theorem touches_put_directory (h : t.get? loc = none) :
    Touches (· = loc) t (t.put loc .directory) where
  here := rfl
  directory other hd := by
    have hne : other ≠ loc := by
      rintro rfl
      rw [h] at hd
      cases hd
    rw [get?_put_of_ne hne, hd]
  same other hne := get?_put_of_ne hne t _

theorem touches_put_file (h : t.get? loc ≠ some .directory) (bytes : ByteArray) :
    Touches (· = loc) t (t.put loc (.file bytes)) where
  here := rfl
  directory other hd := by
    have hne : other ≠ loc := by
      rintro rfl
      exact h hd
    rw [get?_put_of_ne hne, hd]
  same other hne := get?_put_of_ne hne t _

end

/-! ### Making directories -/

/-- There may be a directory, as there is no file. -/
def Passable (t : FileTree) (loc : Location) : Prop :=
  ∀ bytes, t.get? loc ≠ some (.file bytes)

theorem passable_of_directory (h : t.get? loc = some .directory) : t.Passable loc := by
  intro bytes hfile
  rw [h] at hfile
  cases hfile

theorem passable_or_file (t : FileTree) (loc : Location) :
    t.Passable loc ∨ ∃ bytes, t.get? loc = some (.file bytes) := by
  by_cases h : ∃ bytes, t.get? loc = some (.file bytes)
  · exact .inr h
  · exact .inl fun bytes hfile => h ⟨bytes, hfile⟩

def ensure (t : FileTree) (loc : Location) : FileTree :=
  if (t.get? loc).isNone then t.put loc .directory else t

theorem ensure_of_directory (h : t.get? loc = some .directory) : t.ensure loc = t := by
  rw [ensure, h]
  rfl

theorem get?_ensure (h : t.Passable loc) :
    (t.ensure loc).get? loc = some .directory := by
  unfold ensure
  split
  · next hnone =>
    have hne : loc ≠ [] := by
      rintro rfl
      cases hnone
    exact get?_put_self hne t _
  · next hsome =>
    cases hget : t.get? loc with
    | none =>
      rw [hget] at hsome
      exact (hsome rfl).elim
    | some found =>
      cases found with
      | file bytes => exact (h bytes hget).elim
      | directory => rfl

theorem touches_ensure (t : FileTree) (loc : Location) : Touches (· = loc) t (t.ensure loc) := by
  unfold ensure
  split
  · next hnone => exact touches_put_directory (Option.isNone_iff_eq_none.1 hnone)
  · exact .refl _ t

theorem ensure_ensure (h : t.Passable loc) :
    (t.ensure loc).ensure loc = t.ensure loc :=
  ensure_of_directory (get?_ensure h)

theorem makeWay_of_file {bytes : ByteArray} (h : t.get? loc = some (.file bytes))
    (names : List String) : t.makeWay loc names = (t, .error .refused) := by
  unfold makeWay
  split
  · rfl
  · next hother => exact (hother bytes h).elim

theorem makeWay_nil (h : t.Passable loc) :
    t.makeWay loc [] = (t.ensure loc, .ok ()) := by
  rw [makeWay]
  split
  · next bytes hfile => exact (h bytes hfile).elim
  · rfl

theorem makeWay_cons (h : t.Passable loc) (name : String)
    (rest : List String) : t.makeWay loc (name :: rest) =
      if name = "." then (t.ensure loc).makeWay loc rest
      else if name = ".." then (t.ensure loc).makeWay loc.dropLast rest
      else if longestName < name.utf8ByteSize then (t.ensure loc, .error .refused)
      else (t.ensure loc).makeWay (loc ++ [name]) rest := by
  rw [makeWay]
  split
  · next bytes hfile => exact (h bytes hfile).elim
  · rfl

theorem makeWay_ensure (h : t.Passable loc) (names : List String) :
    (t.ensure loc).makeWay loc names = t.makeWay loc names := by
  have hensure := passable_of_directory (get?_ensure h)
  cases names with
  | nil => rw [makeWay_nil hensure, makeWay_nil h, ensure_ensure h]
  | cons name rest => rw [makeWay_cons hensure, makeWay_cons h, ensure_ensure h]

theorem not_file_of_makeWay {names : List String} (h : t.makeWay loc names = (t', .ok ())) :
    t.Passable loc := by
  intro bytes hfile
  rw [makeWay_of_file hfile] at h
  cases h

/-- A way that is made leads to a directory, and it goes on from there. -/
theorem of_makeWay {a : List String} (h : t.makeWay loc a = (t', .ok ())) :
    t'.walk loc a = .ok (follow loc a) ∧ t'.get? (follow loc a) = some .directory ∧
      ∀ b, t.makeWay loc (a ++ b) = t'.makeWay (follow loc a) b := by
  have hfree := not_file_of_makeWay h
  induction a generalizing t loc with
  | nil =>
    rw [makeWay_nil hfree] at h
    cases h
    exact ⟨rfl, get?_ensure hfree, fun b => (makeWay_ensure hfree b).symm⟩
  | cons name a ih =>
    have hdirectory : t'.get? loc = some .directory := by
      have hgrown : Grown (fun _ => True) (t.ensure loc) _ := grown_makeWay _ loc (name :: a)
      rw [makeWay_ensure hfree, h] at hgrown
      exact hgrown.directory loc (get?_ensure hfree)
    rw [makeWay_cons hfree] at h
    simp only [List.cons_append, makeWay_cons hfree, follow, walk, hdirectory]
    split at h
    · next hdot =>
      simp only [if_pos hdot]
      exact ih h (not_file_of_makeWay h)
    · next hdot =>
      simp only [if_neg hdot]
      split at h
      · next hdots =>
        simp only [if_pos hdots]
        exact ih h (not_file_of_makeWay h)
      · next hdots =>
        simp only [if_neg hdots]
        split at h
        · cases h
        · next hshort =>
          simp only [if_neg hshort]
          exact ih h (not_file_of_makeWay h)

/-- A dot at the end leads no further. -/
theorem makeWay_dot (t : FileTree) (loc : Location) (names : List String) :
    t.makeWay loc (names ++ ["."]) = t.makeWay loc names := by
  induction names generalizing t loc with
  | nil =>
    rcases passable_or_file t loc with hfree | ⟨bytes, hfile⟩
    · rw [List.nil_append, makeWay_cons hfree, if_pos rfl, makeWay_ensure hfree]
    · rw [makeWay_of_file hfile, makeWay_of_file hfile]
  | cons name names ih =>
    rcases passable_or_file t loc with hfree | ⟨bytes, hfile⟩
    · rw [List.cons_append, makeWay_cons hfree, makeWay_cons hfree, ih, ih, ih]
    · rw [makeWay_of_file hfile, makeWay_of_file hfile]

theorem makeWay_of_walk {names : List String} {place : Location}
    (h : t.walk loc names = .ok place) (hd : t.get? place = some .directory) :
    t.makeWay loc names = (t, .ok ()) := by
  induction names generalizing loc with
  | nil =>
    cases h
    have hfree : t.Passable place := passable_of_directory hd
    rw [makeWay_nil hfree, ensure_of_directory hd]
  | cons name names ih =>
    rw [walk] at h
    split at h
    · cases h
    · cases h
    · next hhere =>
      have hfree : t.Passable loc := passable_of_directory hhere
      rw [makeWay_cons hfree, ensure_of_directory hhere]
      split at h
      · next hdot => rw [if_pos hdot, ih h]
      · next hdot =>
        rw [if_neg hdot]
        split at h
        · next hdots => rw [if_pos hdots, ih h]
        · next hdots =>
          rw [if_neg hdots]
          split at h
          · cases h
          · next hshort => rw [if_neg hshort, ih h]

theorem DirectoryAt.makeDirs (h : DirectoryAt t p loc) : t.makeDirs p = (t, .ok ()) := by
  have hlocate := h.locate
  rw [FileTree.locate] at hlocate
  split at hlocate
  · cases hlocate
  · split at hlocate
    · cases hlocate
    · next hplain =>
      rw [FileTree.makeDirs, if_neg hplain]
      exact makeWay_of_walk hlocate h.directory

theorem directoryAt_of_makeDirs (h : t.makeDirs p = (t', .ok ())) (hp : p.text.isEmpty = false) :
    DirectoryAt t' p (FileTree.placeOf t.here p) := by
  have hhere : t'.here = t.here := by
    have hgrown : Grown (fun _ => True) t _ := grown_makeDirs t p
    rw [h] at hgrown
    exact hgrown.here
  rw [FileTree.makeDirs] at h
  split at h
  · cases h
  · next hplain =>
    obtain ⟨hwalk, hdirectory, _⟩ := of_makeWay h
    refine ⟨?_, hdirectory⟩
    rw [locate, hhere, hp]
    simp only [hplain]
    exact hwalk

/-- Directories on the way are made first. -/
theorem makeDirs_join (h : t.makeDirs p = (t', .ok ())) (hd : DirectoryAt t' p loc)
    (name : IsName q) (plain : Char.ofNat 0 ∉ q.toList) :
    t.makeDirs (p.join q) = t'.makeWay loc [q] := by
  have hplain : (p.join q).text.toList.contains (Char.ofNat 0) = false := by
    rw [contains_zero_join p name.toIsStep, hd.plain, Bool.false_or]
    simpa using plain
  have hhere : t'.here = t.here := by
    have hgrown : Grown (fun _ => True) t _ := grown_makeDirs t p
    rw [h] at hgrown
    exact hgrown.here
  rw [FileTree.makeDirs, if_neg (by rw [hplain]; decide), isAbsolute_join p name.toIsStep,
    names_join p name.toIsStep]
  rw [FileTree.makeDirs, if_neg (by rw [hd.plain]; decide)] at h
  have htrail : t.makeWay (start t.here p) (trail p) = (t', .ok ()) := by
    change t.makeWay (start t.here p) (names p) = (t', .ok ()) at h
    rcases names_eq_trail p with hnames | hnames
    · rwa [hnames] at h
    · rwa [hnames, makeWay_dot] at h
  obtain ⟨_, _, hon⟩ := of_makeWay htrail
  have hloc := walk_eq_follow hd.walk_trail
  rw [hhere] at hloc
  rw [hloc]
  exact hon [q]

theorem makeDirs_join_of_fits (h : t.makeDirs p = (t', .ok ())) (hd : DirectoryAt t' p loc)
    (name : IsName q) (fits : Fits q) (free : t'.Passable (loc ++ [q])) :
    t.makeDirs (p.join q) = (t'.ensure (loc ++ [q]), .ok ()) ∧
      DirectoryAt (t'.ensure (loc ++ [q])) (p.join q) (loc ++ [q]) := by
  have hmake : t.makeDirs (p.join q) = (t'.ensure (loc ++ [q]), .ok ()) := by
    rw [makeDirs_join h hd name fits.plain, makeWay_cons (passable_of_directory hd.directory),
      if_neg name.ne_dot, if_neg name.ne_dots, if_neg (Nat.not_lt.2 fits.short),
      ensure_of_directory hd.directory, makeWay_nil free]
  have htouches := touches_ensure t' (loc ++ [q])
  exact ⟨hmake, (htouches.directoryAt hd).locate_join name fits, get?_ensure free⟩

/-- What cannot be the name of a directory, or is that of a file, is in the way. -/
theorem makeDirs_join_error (h : t.makeDirs p = (t', .ok ())) (hd : DirectoryAt t' p loc)
    (name : IsName q) (blocked : ¬ Fits q ∨ ¬ t'.Passable (loc ++ [q])) :
    ∃ e, t.makeDirs (p.join q) = (t, .error e) ∨ t.makeDirs (p.join q) = (t', .error e) := by
  by_cases hzero : Char.ofNat 0 ∈ q.toList
  · refine ⟨.refused, .inl ?_⟩
    rw [FileTree.makeDirs, contains_zero_join p name.toIsStep]
    simp [hzero]
  · refine ⟨.refused, .inr ?_⟩
    rw [makeDirs_join h hd name hzero, makeWay_cons (passable_of_directory hd.directory),
      if_neg name.ne_dot, if_neg name.ne_dots, ensure_of_directory hd.directory]
    split
    · rfl
    · next hshort =>
      rcases passable_or_file t' (loc ++ [q]) with hfree | ⟨bytes, hfile⟩
      · rcases blocked with hmisfit | hblocked
        · exact (hmisfit ⟨Nat.not_lt.1 hshort, hzero⟩).elim
        · exact (hblocked hfree).elim
      · rw [makeWay_of_file hfile]

end FileTree
end TaskGen
