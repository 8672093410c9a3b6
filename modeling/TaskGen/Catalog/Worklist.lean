import TaskGen.Catalog.Template

/-!
Templates in the order of a queue.  A template enters the queue as soon as the bases that it waits
for are counted down to none, so every base is settled before what derives from it.
-/

namespace TaskGen
namespace Catalog

def base? (sources : Dict TemplateSource) (id : String) : Option String :=
  (Dict.find? sources id).bind (·.base)

/-- How many bases each template waits for. -/
def inDegrees (sources : Dict TemplateSource) : Dict Nat :=
  Dict.mapValues (fun t => if t.base.isSome then 1 else 0) sources

def noteDependent (known : Dict (List String)) (p : String × TemplateSource) :
    Dict (List String) :=
  match p.2.base with
  | some base => Dict.insert known base ((Dict.find? known base).getD [] ++ [p.1])
  | none => known

/-- For each base the templates that derive from it. -/
def dependents (sources : Dict TemplateSource) : Dict (List String) :=
  sources.foldl noteDependent []

/-- Templates that are settled one by one. -/
structure Worklist where
  queue : List String
  degrees : Dict Nat
  /-- The stages of the templates that are not settled yet, without inherited options. -/
  own : Templates
  settled : Templates

namespace Worklist

def start (sources : Dict TemplateSource) (waiting : List OpenTemplate) : Worklist where
  queue := Dict.keys ((inDegrees sources).filter fun p => p.2 = 0)
  degrees := inDegrees sources
  own := waiting.map fun t => (t.id, t.stages)
  settled := []

def countDown (degrees : Dict Nat) (id : String) : Dict Nat :=
  degrees.map fun p => if p.1 = id then (p.1, p.2 - 1) else p

/-- One base less to wait for.  Nothing is counted below zero, see `release_all`. -/
def release (w : Worklist) (id : String) : Worklist :=
  match Dict.find? w.degrees id with
  | some (degree + 1) =>
    { w with
      degrees := countDown w.degrees id
      queue := if degree = 0 then w.queue ++ [id] else w.queue }
  | _ => w

/-- The stages of a template, with the options of its base if that is settled. -/
def combine (sources : Dict TemplateSource) (w : Worklist) (id : String) : List ConfiguredStage :=
  let own := (Dict.find? w.own id).getD []
  match (base? sources id).bind (Dict.find? w.settled) with
  | some base => inherit base own
  | none => own

/-- Settle a template and release what derives from it. -/
def settle (sources : Dict TemplateSource) (w : Worklist) (id : String) : Worklist :=
  ((Dict.find? (dependents sources) id).getD []).foldl release
    { w with
      own := Dict.erase w.own id
      settled := Dict.insert w.settled id (combine sources w id) }

def total : Dict Nat → Nat
  | [] => 0
  | (_, n) :: rest => n + total rest

/-- The templates in the queue and the bases that are waited for. -/
def size (w : Worklist) : Nat := w.queue.length + total w.degrees

theorem countDown_cons (k : String) (n : Nat) (rest : Dict Nat) (id : String) :
    countDown ((k, n) :: rest) id = (k, if k = id then n - 1 else n) :: countDown rest id := by
  by_cases h : k = id
  · simp [countDown, h]
  · simp [countDown, h]

theorem total_countDown_le (degrees : Dict Nat) (id : String) :
    total (countDown degrees id) ≤ total degrees := by
  induction degrees with
  | nil => exact Nat.le_refl _
  | cons p rest ih =>
    obtain ⟨k, n⟩ := p
    rw [countDown_cons, total, total]
    split
    · omega
    · omega

theorem total_countDown_lt {degrees : Dict Nat} {id : String} {n : Nat}
    (h : Dict.find? degrees id = some (n + 1)) :
    total (countDown degrees id) < total degrees := by
  induction degrees with
  | nil => cases h
  | cons p rest ih =>
    obtain ⟨k, m⟩ := p
    rw [Dict.find?_cons] at h
    rw [countDown_cons, total, total]
    by_cases hk : k = id
    · rw [if_pos hk] at h ⊢
      cases h
      have hrest := total_countDown_le rest id
      omega
    · rw [if_neg hk] at h ⊢
      have hrest := ih h
      omega

theorem size_release_le (w : Worklist) (id : String) : (w.release id).size ≤ w.size := by
  unfold release
  split
  · next h =>
    have htotal := total_countDown_lt h
    simp only [size]
    split
    · rw [List.length_append, List.length_singleton]
      omega
    · omega
  · exact Nat.le_refl _

theorem size_foldl_release_le (w : Worklist) (ids : List String) :
    (ids.foldl release w).size ≤ w.size := by
  induction ids generalizing w with
  | nil => exact Nat.le_refl _
  | cons id ids ih => exact Nat.le_trans (ih (w.release id)) (size_release_le w id)

def run (sources : Dict TemplateSource) (w : Worklist) : Worklist :=
  match _h : w.queue with
  | [] => w
  | id :: rest => run sources (settle sources { w with queue := rest } id)
termination_by w.size
decreasing_by
  refine Nat.lt_of_le_of_lt (size_foldl_release_le _ _) ?_
  simp [size, _h]

end Worklist

/-- Settle all templates of a catalog in the order of a queue.  What still waits for a base at the
end derives from itself. -/
def settleInTurn (sources : Dict TemplateSource) : Except Error Templates := do
  let waiting ← sources.mapM fun (id, t) => do .ok (⟨id, t.base, ← ownStages id t⟩ : OpenTemplate)
  checkBases sources sources
  let w := (Worklist.start sources waiting).run sources
  if w.settled.length = sources.length then .ok w.settled
  else .error (.templateCycle (Dict.keys (w.degrees.filter fun p => 0 < p.2)))

end Catalog
end TaskGen
