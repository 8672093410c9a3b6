import TaskGen.FileTree
import TaskGen.Proofs.Workspace

/-!
A path leads to the same place however much is written, as long as the directories on the way
are still there.  Making directories takes nothing away, and writing a file changes one place.
-/

namespace TaskGen
namespace FileTree

open TaskGen.Path

/-! ### Places -/

/-- The place that names lead to if nothing stands in the way. -/
def follow : Location → List String → Location
  | loc, [] => loc
  | loc, name :: rest =>
    if name = "." then follow loc rest
    else if name = ".." then follow loc.dropLast rest
    else follow (loc ++ [name]) rest

theorem follow_append (loc : Location) (a b : List String) :
    follow loc (a ++ b) = follow (follow loc a) b := by
  induction a generalizing loc with
  | nil => rfl
  | cons name a ih =>
    rw [List.cons_append, follow, follow]
    split
    · exact ih loc
    · split
      · exact ih loc.dropLast
      · exact ih (loc ++ [name])

theorem follow_of_ne_dots (loc : Location) {names : List String}
    (h : ∀ name ∈ names, name ≠ "." ∧ name ≠ "..") : follow loc names = loc ++ names := by
  induction names generalizing loc with
  | nil => rw [follow, List.append_nil]
  | cons name names ih =>
    obtain ⟨hdot, hdots⟩ := h name List.mem_cons_self
    have hrest := fun n hn => h n (List.mem_cons_of_mem _ hn)
    rw [follow, if_neg hdot, if_neg hdots, ih _ hrest, List.append_assoc, List.singleton_append]

theorem walk_eq_follow {t : FileTree} {loc place : Location} {names : List String}
    (h : t.walk loc names = .ok place) : place = follow loc names := by
  induction names generalizing loc with
  | nil =>
    rw [walk] at h
    cases h
    rfl
  | cons name names ih =>
    rw [walk] at h
    rw [follow]
    split at h
    · cases h
    · cases h
    · split at h
      · next hdot => rw [if_pos hdot]; exact ih h
      · next hdot =>
        rw [if_neg hdot]
        split at h
        · next hdots => rw [if_pos hdots]; exact ih h
        · next hdots =>
          rw [if_neg hdots]
          split at h
          · cases h
          · exact ih h

theorem names_join (p : Path) {q : String} (h : IsStep q) :
    names (p.join q) = trail p ++ [q] := by
  obtain ⟨front, hparts, hfront⟩ := exists_parts_join p h
  have hlast : (front ++ [q]).getLast? = some q := List.getLast?_concat
  rw [names, hparts, hlast, List.filter_append, filter_eq_trail hfront]
  simp [h.nonempty]

def placeOf (here : Location) (p : Path) : Location :=
  follow (if p.isAbsolute then [] else here) (names p)

theorem locate_eq_placeOf {t : FileTree} {p : Path} {place : Location}
    (h : t.locate p = .ok place) : place = placeOf t.here p := by
  rw [locate] at h
  split at h
  · cases h
  · split at h
    · cases h
    · exact walk_eq_follow h

theorem placeOf_join (here : Location) (p : Path) {q : String} (h : IsStep q)
    (hdots : q ≠ "." ∧ q ≠ "..") :
    placeOf here (p.join q) = follow (if p.isAbsolute then [] else here) (trail p) ++ [q] := by
  rw [placeOf, isAbsolute_join p h, names_join p h, follow_append]
  exact follow_of_ne_dots _ fun name hname => by rw [List.mem_singleton.1 hname]; exact hdots

/-! ### More and more files -/

/-- Nothing is taken away.  Only the places that are not spared may get another file. -/
structure Grown (spared : Location → Prop) (t t' : FileTree) : Prop where
  here : t'.here = t.here
  directory : ∀ loc, t.get? loc = some .directory → t'.get? loc = some .directory
  kept : ∀ loc e, spared loc → t.get? loc = some e → t'.get? loc = some e

variable {spared : Location → Prop} {t t' t'' : FileTree}

theorem Grown.refl (spared : Location → Prop) (t : FileTree) : Grown spared t t where
  here := rfl
  directory _ h := h
  kept _ _ _ h := h

theorem Grown.trans (h : Grown spared t t') (h' : Grown spared t' t'') :
    Grown spared t t'' where
  here := h'.here.trans h.here
  directory loc hd := h'.directory loc (h.directory loc hd)
  kept loc e hs he := h'.kept loc e hs (h.kept loc e hs he)

theorem Grown.mono {fewer : Location → Prop} (h : Grown spared t t')
    (hfewer : ∀ loc, fewer loc → spared loc) : Grown fewer t t' where
  here := h.here
  directory := h.directory
  kept loc e hs := h.kept loc e (hfewer loc hs)

theorem Grown.walk (h : Grown spared t t') {loc place : Location} {names : List String}
    (hw : t.walk loc names = .ok place) : t'.walk loc names = .ok place := by
  induction names generalizing loc with
  | nil => exact hw
  | cons name names ih =>
    rw [FileTree.walk] at hw ⊢
    split at hw
    · cases hw
    · cases hw
    · next hd =>
      rw [h.directory loc hd]
      split at hw
      · next hdot =>
        rw [if_pos hdot]
        exact ih hw
      · next hdot =>
        rw [if_neg hdot]
        split at hw
        · next hdots =>
          rw [if_pos hdots]
          exact ih hw
        · next hdots =>
          rw [if_neg hdots]
          split at hw
          · cases hw
          · next hshort =>
            rw [if_neg hshort]
            exact ih hw

theorem Grown.locate (h : Grown spared t t') {p : Path} {place : Location}
    (hl : t.locate p = .ok place) : t'.locate p = .ok place := by
  rw [FileTree.locate] at hl ⊢
  rw [h.here]
  split at hl
  · cases hl
  · next hsome =>
    rw [if_neg hsome]
    split at hl
    · cases hl
    · next hvalid =>
      rw [if_neg hvalid]
      exact h.walk hl

theorem read_of_get? {p : Path} {place : Location} {bytes : ByteArray}
    (hl : t.locate p = .ok place) (hg : t.get? place = some (.file bytes)) :
    t.read p = .ok bytes := by
  simp [read, find, hl, hg, bind, Except.bind]

theorem exists_of_read {p : Path} {bytes : ByteArray} (h : t.read p = .ok bytes) :
    ∃ place, t.locate p = .ok place ∧ t.get? place = some (.file bytes) := by
  cases hl : t.locate p with
  | error e => simp [read, find, hl, bind, Except.bind] at h
  | ok place =>
    refine ⟨place, rfl, ?_⟩
    cases hg : t.get? place with
    | none => simp [read, find, hl, hg, bind, Except.bind] at h
    | some e =>
      cases e with
      | directory => simp [read, find, hl, hg, bind, Except.bind] at h
      | file found =>
        simp only [read, find, hl, hg, bind, Except.bind] at h
        cases h
        rfl

/-- A file that is spared is read as before. -/
theorem Grown.read (h : Grown spared t t') {p : Path} {bytes : ByteArray}
    (hs : spared (placeOf t.here p)) (hr : t.read p = .ok bytes) : t'.read p = .ok bytes := by
  obtain ⟨place, hl, hg⟩ := exists_of_read hr
  have hplace := locate_eq_placeOf hl
  rw [← hplace] at hs
  exact read_of_get? (h.locate hl) (h.kept place _ hs hg)

/-! ### Operations -/

theorem grown_put_directory {loc : Location} (h : t.get? loc = none) :
    Grown spared t (t.put loc .directory) where
  here := rfl
  directory other hd := by
    by_cases heq : other = loc
    · rw [heq, h] at hd
      cases hd
    · rw [get?_put_of_ne heq, hd]
  kept other e _ he := by
    by_cases heq : other = loc
    · rw [heq, h] at he
      cases he
    · rw [get?_put_of_ne heq, he]

theorem grown_makeWay (t : FileTree) (loc : Location) (names : List String) :
    Grown spared t (t.makeWay loc names).1 := by
  induction names generalizing t loc with
  | nil =>
    rw [makeWay]
    split
    · exact .refl spared t
    · split
      · next hnone => exact grown_put_directory (Option.isNone_iff_eq_none.1 hnone)
      · exact .refl spared t
  | cons name names ih =>
    rw [makeWay]
    split
    · exact .refl spared t
    · -- The directory is there now, and the way goes on from it.
      have hhere : Grown spared t
          (if (t.get? loc).isNone = true then t.put loc .directory else t) := by
        split
        · next hnone => exact grown_put_directory (Option.isNone_iff_eq_none.1 hnone)
        · exact .refl spared t
      simp only []
      split
      · exact hhere.trans (ih _ _)
      · split
        · exact hhere.trans (ih _ _)
        · split
          · exact hhere
          · exact hhere.trans (ih _ _)

theorem grown_makeDirs (t : FileTree) (p : Path) : Grown spared t (t.makeDirs p).1 := by
  rw [makeDirs]
  split
  · exact .refl spared t
  · exact grown_makeWay t _ _

theorem exists_of_write {p : Path} {bytes : ByteArray} (h : t.write p bytes = .ok t') :
    ∃ place, t.locate p = .ok place ∧ t.get? place ≠ some .directory ∧
      t' = t.put place (.file bytes) := by
  cases hl : t.locate p with
  | error e => simp [write, hl, bind, Except.bind] at h
  | ok place =>
    have hfile : t.get? place ≠ some .directory := by
      intro hd
      simp [write, hl, hd, bind, Except.bind] at h
    simp only [write, hl, bind, Except.bind] at h
    exact ⟨place, rfl, hfile, (Except.ok.inj h).symm⟩

/-- A file is written in one place, and nothing else is changed. -/
theorem of_write {p : Path} {bytes : ByteArray} (h : t.write p bytes = .ok t') :
    Grown (· ≠ placeOf t.here p) t t' ∧ t'.read p = .ok bytes := by
  obtain ⟨place, hl, hfile, ht'⟩ := exists_of_write h
  have hplace := locate_eq_placeOf hl
  have htop : place ≠ [] := by
    intro htop
    rw [htop] at hfile
    exact hfile rfl
  have hgrown : Grown (· ≠ placeOf t.here p) t t' := by
    rw [ht', ← hplace]
    refine ⟨rfl, fun loc hd => ?_, fun loc e hne he => ?_⟩
    · have hne : loc ≠ place := by
        intro heq
        rw [heq] at hd
        exact hfile hd
      rw [get?_put_of_ne hne, hd]
    · rw [get?_put_of_ne hne, he]
  refine ⟨hgrown, read_of_get? (hgrown.locate hl) ?_⟩
  rw [ht', get?_put_self htop]

end FileTree
end TaskGen
