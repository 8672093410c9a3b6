import TaskGen.Proofs.Catalog.Inheritance

/-!
The queue of templates.  A template is in the queue exactly if it is not settled and waits for
nothing, so a base is settled before what derives from it, each template once, and those on a chain
that never ends not at all.  The queue comes to the same templates as rounds do.

Main statement: `settling_of_valid`.
-/

namespace TaskGen
namespace Catalog

variable {sources : Dict TemplateSource} {id : String}

/-! ### Dependents -/

theorem find?_foldl_noteDependent (pairs : List (String × TemplateSource))
    (known : Dict (List String)) (base : String) :
    (Dict.find? (pairs.foldl noteDependent known) base).getD [] =
      (Dict.find? known base).getD [] ++ (pairs.filter (·.2.base = some base)).map (·.1) := by
  induction pairs generalizing known with
  | nil => simp
  | cons p rest ih =>
    rw [List.foldl_cons, ih, noteDependent]
    split
    · next own hown =>
      rw [Dict.find?_insert]
      by_cases hbase : own = base
      · simp [hown, hbase]
      · simp [hown, hbase]
    · next hnone => simp [hnone]

def derivedFrom (sources : Dict TemplateSource) (id : String) : List String :=
  (Dict.find? (dependents sources) id).getD []

theorem derivedFrom_eq (sources : Dict TemplateSource) (id : String) :
    derivedFrom sources id = (sources.filter (·.2.base = some id)).map (·.1) :=
  find?_foldl_noteDependent sources [] id

theorem nodup_derivedFrom (ordered : Dict.Ordered sources) (id : String) :
    (derivedFrom sources id).Nodup := by
  rw [derivedFrom_eq]
  exact ordered.nodup_keys.sublist (List.filter_sublist.map _)

theorem mem_derivedFrom_iff (ordered : Dict.Ordered sources) {id base : String} :
    id ∈ derivedFrom sources base ↔ base? sources id = some base := by
  rw [derivedFrom_eq]
  constructor
  · intro hid
    obtain ⟨⟨id', t⟩, hp, rfl⟩ := List.mem_map.1 hid
    obtain ⟨hmem, hbase⟩ := List.mem_filter.1 hp
    rw [base?_of_find? (Dict.find?_of_mem ordered.nodup_keys hmem)]
    simpa using hbase
  · intro hbase
    obtain ⟨t, hfind, ht⟩ := Option.bind_eq_some_iff.1 hbase
    refine List.mem_map.2 ⟨(id, t), List.mem_filter.2 ⟨Dict.mem_of_find? hfind, ?_⟩, rfl⟩
    simpa using ht

namespace Worklist

/-! ### Counting down -/

theorem keys_countDown (degrees : Dict Nat) (id : String) :
    Dict.keys (countDown degrees id) = Dict.keys degrees := by
  induction degrees with
  | nil => rfl
  | cons p rest ih =>
    rw [countDown_cons]
    show p.1 :: Dict.keys (countDown rest id) = p.1 :: Dict.keys rest
    rw [ih]

theorem find?_countDown (degrees : Dict Nat) (id other : String) :
    Dict.find? (countDown degrees id) other =
      (Dict.find? degrees other).map fun n => if other = id then n - 1 else n := by
  induction degrees with
  | nil => rfl
  | cons p rest ih =>
    rw [countDown_cons, Dict.find?_cons, Dict.find?_cons, ih]
    by_cases h : p.1 = other
    · simp [h]
    · simp [h]

/-- Templates that wait for one base each are put into the queue, and no degree is below zero. -/
theorem release_all {ids : List String} (distinct : ids.Nodup) {w : Worklist}
    (one : ∀ id ∈ ids, Dict.find? w.degrees id = some 1) :
    (ids.foldl release w).queue = w.queue ++ ids ∧ (ids.foldl release w).own = w.own ∧
      (ids.foldl release w).settled = w.settled ∧
      Dict.keys (ids.foldl release w).degrees = Dict.keys w.degrees ∧
      ∀ id, Dict.find? (ids.foldl release w).degrees id =
        if id ∈ ids then some 0 else Dict.find? w.degrees id := by
  induction ids generalizing w with
  | nil => simp
  | cons id ids ih =>
    obtain ⟨hid, hids⟩ := List.nodup_cons.1 distinct
    have hrelease : w.release id =
        { w with degrees := countDown w.degrees id, queue := w.queue ++ [id] } := by
      rw [release, one id List.mem_cons_self]
      rfl
    have hone : ∀ other ∈ ids, Dict.find? (w.release id).degrees other = some 1 := by
      intro other hother
      have hne : other ≠ id := fun heq => hid (heq ▸ hother)
      rw [hrelease, find?_countDown, one other (List.mem_cons_of_mem id hother)]
      simp [hne]
    obtain ⟨hqueue, hown, hsettled, hkeys, hdegrees⟩ := ih hids hone
    rw [List.foldl_cons, hqueue, hown, hsettled, hkeys]
    refine ⟨?_, ?_, ?_, ?_, fun other => ?_⟩
    · rw [hrelease, List.append_assoc]
      rfl
    · rw [hrelease]
    · rw [hrelease]
    · rw [hrelease, keys_countDown]
    · rw [hdegrees, hrelease, find?_countDown]
      by_cases hother : other = id
      · simp [hother, hid, one id List.mem_cons_self]
      · simp [hother]

/-! ### What the queue keeps -/

/-- The base of the template is not settled. -/
def waits (sources : Dict TemplateSource) (settled : Templates) (id : String) : Bool :=
  (base? sources id).any fun base => !Dict.contains settled base

theorem waits_eq_false_iff {settled : Templates} : waits sources settled id = false ↔
    ∀ base, base? sources id = some base → base ∈ Dict.keys settled := by
  unfold waits
  cases base? sources id with
  | none => simp
  | some base => simp [Dict.contains_iff]

structure Sound (sources : Dict TemplateSource) (w : Worklist) : Prop
    extends Settled sources w.settled where
  distinct : w.queue.Nodup
  /-- What waits for nothing is in the queue until it is settled. -/
  queued_iff : ∀ id, id ∈ w.queue ↔
    id ∈ Dict.keys sources ∧ id ∉ Dict.keys w.settled ∧ waits sources w.settled id = false
  names : Dict.keys w.degrees = Dict.keys sources
  degree : ∀ id ∈ Dict.keys sources,
    Dict.find? w.degrees id = some (if waits sources w.settled id then 1 else 0)
  own : ∀ id t, Dict.find? sources id = some t → id ∉ Dict.keys w.settled →
    ∃ stages, ownStages id t = .ok stages ∧ Dict.find? w.own id = some stages

theorem waits_insert (settled : Templates) (stages : List ConfiguredStage) (id other : String) :
    waits sources (Dict.insert settled id stages) other =
      (waits sources settled other && decide (base? sources other ≠ some id)) := by
  rw [Bool.eq_iff_iff, ← not_iff_not, Bool.not_eq_true, Bool.not_eq_true, waits_eq_false_iff,
    Bool.and_eq_false_iff, waits_eq_false_iff, decide_eq_false_iff_not, not_not]
  simp only [Dict.mem_keys_insert]
  cases base? sources other with
  | none => simp
  | some base => simp [or_comm]

namespace Sound

variable {w : Worklist} {rest : List String}

theorem waits_of_settled (h : Sound sources w)
    (hid : id ∈ Dict.keys w.settled) : waits sources w.settled id = false :=
  waits_eq_false_iff.2 fun base hbase => h.based id hid base hbase

theorem queued_front (h : Sound sources w) (hqueue : w.queue = id :: rest) :
    id ∈ Dict.keys sources ∧ id ∉ Dict.keys w.settled ∧ waits sources w.settled id = false := by
  rw [← h.queued_iff, hqueue]
  exact List.mem_cons_self

theorem waits_of_derived (h : Sound sources w) (hqueue : w.queue = id :: rest) {other : String}
    (hbase : base? sources other = some id) : waits sources w.settled other = true := by
  rw [← Bool.not_eq_false, waits_eq_false_iff]
  intro hall
  exact (h.queued_front hqueue).2.1 (hall id hbase)

/-- The front of the queue has all that it needs to be settled. -/
theorem resolves_combine (h : Sound sources w) (hqueue : w.queue = id :: rest) :
    Resolves sources id (combine sources w id) := by
  obtain ⟨hsource, hopen, hwaits⟩ := h.queued_front hqueue
  obtain ⟨t, hfind⟩ := Dict.mem_keys_iff.1 hsource
  obtain ⟨own, hread, hown⟩ := h.own id t hfind hopen
  unfold combine
  rw [hown, base?_of_find? hfind, Option.getD_some]
  cases hbase : t.base with
  | none => exact .root hfind hread hbase
  | some base =>
    have hknown := waits_eq_false_iff.1 hwaits base ((base?_of_find? hfind).trans hbase)
    obtain ⟨stages, hstages⟩ := Dict.mem_keys_iff.1 hknown
    rw [Option.bind_some, hstages]
    exact .derived hfind hread hbase (h.resolves base stages hstages) (forall₂_inherited_iff.2 rfl)

/-- Settling the front of the queue releases all that derives from it. -/
theorem settle_eq (h : Sound sources w) (ordered : Dict.Ordered sources)
    (hqueue : w.queue = id :: rest) :
    let next := settle sources { w with queue := rest } id
    next.queue = rest ++ derivedFrom sources id ∧ next.own = Dict.erase w.own id ∧
      next.settled = Dict.insert w.settled id (combine sources w id) ∧
      Dict.keys next.degrees = Dict.keys w.degrees ∧
      ∀ other, Dict.find? next.degrees other =
        if other ∈ derivedFrom sources id then some 0 else Dict.find? w.degrees other := by
  refine release_all (nodup_derivedFrom ordered id) fun other hother => ?_
  have hbase := (mem_derivedFrom_iff ordered).1 hother
  show Dict.find? w.degrees other = some 1
  rw [h.degree other (mem_keys_of_base? hbase), h.waits_of_derived hqueue hbase]
  rfl

theorem mem_rest_iff (h : Sound sources w) (hqueue : w.queue = id :: rest) (other : String) :
    other ∈ rest ↔ other ∈ w.queue ∧ other ≠ id := by
  have hdistinct := h.distinct
  rw [hqueue, List.nodup_cons] at hdistinct
  rw [hqueue, List.mem_cons]
  constructor
  · intro hother
    exact ⟨.inr hother, fun heq => hdistinct.1 (heq ▸ hother)⟩
  · rintro ⟨hmem, hne⟩
    exact hmem.resolve_left hne

/-- The next queue has what waits for nothing once the front of the queue is settled. -/
theorem mem_next_iff (h : Sound sources w) (ordered : Dict.Ordered sources)
    (hqueue : w.queue = id :: rest) (stages : List ConfiguredStage) (other : String) :
    other ∈ rest ++ derivedFrom sources id ↔
      other ∈ Dict.keys sources ∧ other ∉ Dict.keys (Dict.insert w.settled id stages) ∧
        waits sources (Dict.insert w.settled id stages) other = false := by
  rw [List.mem_append, mem_derivedFrom_iff ordered, h.mem_rest_iff hqueue, h.queued_iff,
    waits_insert, Dict.mem_keys_insert]
  -- Only what derives from the front of the queue is set free, as it waited for nothing else.
  by_cases hbase : base? sources other = some id
  · have hwaiting := h.waits_of_derived hqueue hbase
    have hne : other ≠ id := by
      rintro rfl
      rw [(h.queued_front hqueue).2.2] at hwaiting
      cases hwaiting
    have hnew : other ∉ Dict.keys w.settled := fun hold => by
      rw [h.waits_of_settled hold] at hwaiting
      cases hwaiting
    simp [mem_keys_of_base? hbase, hbase, hne, hnew]
  · simp only [hbase, or_false, ne_eq, not_false_eq_true, decide_true, Bool.and_true, not_or]
    tauto

theorem settle (h : Sound sources w) (ordered : Dict.Ordered sources)
    (hqueue : w.queue = id :: rest) :
    Sound sources (settle sources { w with queue := rest } id) := by
  obtain ⟨hnext, hown, hsettled, hnames, hdegrees⟩ := h.settle_eq ordered hqueue
  constructor
  case toSettled =>
    rw [hsettled]
    exact h.toSettled.insert (h.resolves_combine hqueue)
      (waits_eq_false_iff.1 (h.queued_front hqueue).2.2)
  case distinct =>
    rw [hnext]
    have hrest := h.distinct
    rw [hqueue] at hrest
    refine hrest.of_cons.append (nodup_derivedFrom ordered id) fun other hother hderived => ?_
    have hwaiting := h.waits_of_derived hqueue ((mem_derivedFrom_iff ordered).1 hderived)
    have hmem := ((h.mem_rest_iff hqueue other).1 hother).1
    rw [((h.queued_iff other).1 hmem).2.2] at hwaiting
    cases hwaiting
  case queued_iff =>
    intro other
    rw [hnext, hsettled]
    exact h.mem_next_iff ordered hqueue _ other
  case names =>
    rw [hnames]
    exact h.names
  case degree =>
    intro other hother
    rw [hdegrees, h.degree other hother, hsettled, waits_insert]
    by_cases hbase : base? sources other = some id
    · simp [mem_derivedFrom_iff ordered, hbase]
    · simp [mem_derivedFrom_iff ordered, hbase]
  case own =>
    intro other t hfind hother
    rw [hsettled, Dict.mem_keys_insert, not_or] at hother
    obtain ⟨stages, hread, hstages⟩ := h.own other t hfind hother.2
    refine ⟨stages, hread, ?_⟩
    rw [hown, Dict.find?_erase_of_ne _ hother.1]
    exact hstages

theorem run (h : Sound sources w) (ordered : Dict.Ordered sources) :
    Sound sources (w.run sources) ∧ (w.run sources).queue = [] := by
  induction w using Worklist.run.induct sources with
  | case1 w hqueue =>
    rw [Worklist.run]
    split
    · exact ⟨h, hqueue⟩
    · next hcons =>
      rw [hqueue] at hcons
      cases hcons
  | case2 w id rest hqueue ih =>
    rw [Worklist.run]
    split
    · next hnil =>
      rw [hqueue] at hnil
      cases hnil
    · next id' rest' hcons =>
      rw [hqueue] at hcons
      cases hcons
      exact ih (h.settle ordered hqueue)

/-- Nothing is left in the queue, so what is not settled waits for a base. -/
theorem outcome (h : Sound sources w) (ordered : Dict.Ordered sources) (empty : w.queue = []) :
    Outcome sources w.settled (Dict.keys (w.degrees.filter fun p => 0 < p.2)) := by
  have hsettled : ∀ id ∈ Dict.keys sources, waits sources w.settled id = false →
      id ∈ Dict.keys w.settled := by
    intro id hid hwaits
    by_contra hopen
    have hmem := (h.queued_iff id).2 ⟨hid, hopen, hwaits⟩
    rw [empty] at hmem
    cases hmem
  have hnames : (Dict.keys w.degrees).Pairwise (· < ·) := by
    rw [h.names]
    exact ordered.pairwise_keys
  constructor
  case toSettled => exact h.toSettled
  case closed =>
    intro id hid hbase
    exact hsettled id hid (waits_eq_false_iff.2 hbase)
  case sorted => exact hnames.sublist (List.filter_sublist.map _)
  case mem_rest_iff =>
    intro id
    rw [Dict.mem_keys_filter hnames.nodup]
    constructor
    · rintro ⟨n, hfind, hn⟩
      have hid : id ∈ Dict.keys sources := by
        rw [← h.names]
        exact Dict.mem_keys_iff.2 ⟨n, hfind⟩
      refine ⟨hid, fun hold => ?_⟩
      rw [h.degree id hid, h.waits_of_settled hold] at hfind
      cases hfind
      cases hn
    · rintro ⟨hid, hopen⟩
      have hwaits : waits sources w.settled id = true := by
        rw [← Bool.not_eq_false]
        exact fun hfree => hopen (hsettled id hid hfree)
      refine ⟨1, ?_, rfl⟩
      rw [h.degree id hid, hwaits]
      rfl

end Sound

theorem find?_inDegrees (sources : Dict TemplateSource) (id : String) :
    Dict.find? (inDegrees sources) id =
      (Dict.find? sources id).map fun _ => if waits sources [] id then 1 else 0 := by
  rw [inDegrees, Dict.find?_mapValues]
  unfold waits base?
  cases Dict.find? sources id with
  | none => rfl
  | some t =>
    cases hbase : t.base with
    | none => simp [hbase]
    | some base => simp [hbase, Dict.contains]

theorem start_sound (ordered : Dict.Ordered sources) {waiting : List OpenTemplate}
    (hopened : opened sources = .ok waiting) : Sound sources (start sources waiting) := by
  have hnames : Dict.keys (inDegrees sources) = Dict.keys sources := Dict.keys_mapValues _ _
  have hdistinct : (Dict.keys (inDegrees sources)).Nodup := by
    rw [hnames]
    exact ordered.nodup_keys
  constructor
  case toSettled => exact .nil sources
  case distinct => exact hdistinct.sublist (List.filter_sublist.map _)
  case queued_iff =>
    intro id
    show id ∈ Dict.keys ((inDegrees sources).filter fun p => p.2 = 0) ↔ _
    rw [Dict.mem_keys_filter hdistinct, find?_inDegrees, Dict.mem_keys_iff]
    cases Dict.find? sources id with
    | none => simp
    | some t => simp [start, Dict.keys]
  case names => exact hnames
  case degree =>
    intro id hid
    obtain ⟨t, hfind⟩ := Dict.mem_keys_iff.1 hid
    show Dict.find? (inDegrees sources) id = _
    rw [find?_inDegrees, hfind]
    rfl
  case own =>
    intro id t hfind _
    have hids := map_id_of_opened hopened
    have hid : id ∈ waiting.map (·.id) := by
      rw [hids]
      exact Dict.mem_keys_iff.2 ⟨t, hfind⟩
    obtain ⟨o, ho, rfl⟩ := List.mem_map.1 hid
    obtain ⟨source, hsource, hread⟩ := ((progress_of_opened ordered hopened).described o ho).read
    cases hfind.symm.trans hsource
    have hown : Dict.keys (waiting.map fun t => (t.id, t.stages)) = waiting.map (·.id) := by
      rw [Dict.keys, List.map_map]
      rfl
    refine ⟨o.stages, hread, Dict.find?_of_mem ?_ (List.mem_map_of_mem ho)⟩
    show (Dict.keys (waiting.map fun t => (t.id, t.stages))).Nodup
    rw [hown, hids]
    exact ordered.nodup_keys

end Worklist

/-! ### Both ways to settle -/

theorem settleInTurn_concluded (ordered : Dict.Ordered sources) {waiting : List OpenTemplate}
    (hopened : opened sources = .ok waiting) (hbases : checkBases sources sources = .ok ()) :
    ∃ settled rest, Outcome sources settled rest ∧
      settleInTurn sources = concluded settled rest := by
  obtain ⟨hsound, hempty⟩ := (Worklist.start_sound ordered hopened).run ordered
  have houtcome := hsound.outcome ordered hempty
  refine ⟨_, _, houtcome, ?_⟩
  show (opened sources >>= fun waiting => checkBases sources sources >>= fun _ => _) = _
  rw [hopened, hbases]
  show (if _ then _ else _) = _
  simp only [houtcome.length_eq_iff ordered]
  rfl

theorem settleTemplates_concluded (ordered : Dict.Ordered sources) {waiting : List OpenTemplate}
    (hopened : opened sources = .ok waiting) (hbases : checkBases sources sources = .ok ()) :
    ∃ settled rest, Outcome sources settled rest ∧
      settleTemplates sources = concluded settled rest :=
  ⟨_, _, outcome_of_rounds (progress_of_opened ordered hopened), settleTemplates_eq hopened hbases⟩

/-- The order of a queue and rounds come to the same, faults included. -/
theorem settleInTurn_eq_settleTemplates (ordered : Dict.Ordered sources) :
    settleInTurn sources = settleTemplates sources := by
  cases hopened : opened sources with
  | error e =>
    show (opened sources >>= _) = (opened sources >>= _)
    rw [hopened]
    rfl
  | ok waiting =>
    cases hbases : checkBases sources sources with
    | error e =>
      show (opened sources >>= fun _ => checkBases sources sources >>= _) =
        (opened sources >>= fun _ => checkBases sources sources >>= _)
      rw [hopened, hbases]
      rfl
    | ok _ =>
      obtain ⟨_, _, houtcome, heq⟩ := settleInTurn_concluded ordered hopened hbases
      obtain ⟨_, _, houtcome', heq'⟩ := settleTemplates_concluded ordered hopened hbases
      obtain ⟨rfl, rfl⟩ := houtcome.unique houtcome' (basesKnown_of_checkBases hbases)
      exact heq.trans heq'.symm

/-! ### What settling comes to -/

structure Valid (sources : Dict TemplateSource) : Prop where
  ordered : Dict.Ordered sources
  read : ∀ p ∈ sources, ∃ stages, ownStages p.1 p.2 = .ok stages
  known : ∀ p ∈ sources, ∀ base, p.2.base = some base → base ∈ Dict.keys sources

namespace Valid

theorem basesKnown (h : Valid sources) : BasesKnown sources :=
  basesKnown_of_checkBases (checkBases_iff.2 h.known)

theorem exists_outcome (h : Valid sources) : ∃ settled rest, Outcome sources settled rest ∧
    settleTemplates sources = concluded settled rest := by
  obtain ⟨waiting, hopened⟩ := exists_opened h.read
  exact settleTemplates_concluded h.ordered hopened (checkBases_iff.2 h.known)

theorem outcome_of_ok (h : Valid sources) {templates : Templates}
    (hok : settleTemplates sources = .ok templates) : Outcome sources templates [] := by
  obtain ⟨settled, rest, houtcome, heq⟩ := h.exists_outcome
  rw [heq, concluded] at hok
  split at hok
  · next hnil =>
    cases hok
    rwa [hnil] at houtcome
  · cases hok

theorem outcome_of_error (h : Valid sources) {e : Error}
    (herror : settleTemplates sources = .error e) :
    ∃ settled ids, e = .templateCycle ids ∧ Outcome sources settled ids := by
  obtain ⟨settled, rest, houtcome, heq⟩ := h.exists_outcome
  rw [heq, concluded] at herror
  split at herror
  · cases herror
  · cases herror
    exact ⟨settled, rest, rfl, houtcome⟩

theorem exists_ok_iff (h : Valid sources) :
    (∃ templates, settleTemplates sources = .ok templates) ↔
      ∀ id ∈ Dict.keys sources, Grounded sources id := by
  constructor
  · rintro ⟨templates, hok⟩ id hid
    have houtcome := h.outcome_of_ok hok
    by_contra hendless
    exact List.not_mem_nil ((houtcome.mem_rest h.basesKnown).2 ⟨hid, hendless⟩)
  · intro hgrounded
    obtain ⟨settled, rest, houtcome, heq⟩ := h.exists_outcome
    have hnil : rest = [] := by
      rw [List.eq_nil_iff_forall_not_mem]
      intro id hid
      obtain ⟨hsource, hendless⟩ := (houtcome.mem_rest h.basesKnown).1 hid
      exact hendless (hgrounded id hsource)
    exact ⟨settled, heq.trans (if_pos hnil)⟩

theorem renamed (h : Valid sources) {ρ : String → String} (inj : Function.Injective ρ) :
    Valid (renamed ρ sources) where
  ordered := Dict.ordered_ofList _
  read p hp := by
    obtain ⟨id, t, hmem, rfl⟩ := exists_of_mem_renamed inj h.ordered hp
    obtain ⟨stages, hread⟩ := h.read _ hmem
    exact ⟨stages, ownStages_ok_of_ok rfl hread⟩
  known p hp base hbase := by
    obtain ⟨id, t, hmem, rfl⟩ := exists_of_mem_renamed inj h.ordered hp
    obtain ⟨base', hbase', rfl⟩ := Option.map_eq_some_iff.1 hbase
    exact mem_keys_renamed.2 ⟨base', h.known _ hmem base' hbase', rfl⟩

theorem settled_renamed (h : Valid sources) {ρ : String → String} (inj : Function.Injective ρ)
    {templates : Templates} (hok : settleTemplates sources = .ok templates) :
    ∃ others, settleTemplates (Catalog.renamed ρ sources) = .ok others ∧
      ∀ id, Dict.find? others (ρ id) = Dict.find? templates id := by
  have hvalid := h.renamed inj
  have houtcome := h.outcome_of_ok hok
  have hgrounded := h.exists_ok_iff.1 ⟨templates, hok⟩
  have hok' := hvalid.exists_ok_iff.2 fun other hother => by
    obtain ⟨id, hid, rfl⟩ := mem_keys_renamed.1 hother
    exact (hgrounded id hid).renamed inj h.ordered
  obtain ⟨others, hothers⟩ := hok'
  have houtcome' := hvalid.outcome_of_ok hothers
  refine ⟨others, hothers, fun id => ?_⟩
  cases hfind : Dict.find? templates id with
  | some stages =>
    have hresolves := (houtcome.find?_iff h.basesKnown).1 hfind
    exact (houtcome'.find?_iff hvalid.basesKnown).2 (hresolves.renamed inj h.ordered)
  | none =>
    rw [Dict.find?_eq_none_iff, houtcome.keys_eq h.ordered] at hfind
    rw [Dict.find?_eq_none_iff, houtcome'.keys_eq hvalid.ordered, mem_keys_renamed]
    rintro ⟨id', hid', heq⟩
    exact hfind (inj heq ▸ hid')

end Valid

/-- Settling gives every template its meaning, or else names those that have none. -/
structure Settling (sources : Dict TemplateSource) : Prop where
  succeeds_iff : (∃ templates, settleTemplates sources = .ok templates) ↔
    ∀ id ∈ Dict.keys sources, Grounded sources id
  names : ∀ templates, settleTemplates sources = .ok templates →
    Dict.keys templates = Dict.keys sources
  stages_iff : ∀ templates, settleTemplates sources = .ok templates → ∀ id stages,
    Dict.find? templates id = some stages ↔ Resolves sources id stages
  cycle : ∀ e, settleTemplates sources = .error e → ∃ ids, e = .templateCycle ids ∧
    ids.Pairwise (· < ·) ∧ ∀ id, id ∈ ids ↔ id ∈ Dict.keys sources ∧ ¬ Grounded sources id
  /-- Other identifiers, in whatever order, do not change what a template gets. -/
  renamed : ∀ ρ : String → String, Function.Injective ρ → ∀ templates,
    settleTemplates sources = .ok templates → ∃ others,
      settleTemplates (renamed ρ sources) = .ok others ∧
        ∀ id, Dict.find? others (ρ id) = Dict.find? templates id
  inTurn : settleInTurn sources = settleTemplates sources

theorem settling_of_valid (h : Valid sources) : Settling sources where
  succeeds_iff := h.exists_ok_iff
  names _ hok := (h.outcome_of_ok hok).keys_eq h.ordered
  stages_iff _ hok _ _ := (h.outcome_of_ok hok).find?_iff h.basesKnown
  cycle e herror := by
    obtain ⟨settled, ids, he, houtcome⟩ := h.outcome_of_error herror
    exact ⟨ids, he, houtcome.sorted, fun id => houtcome.mem_rest h.basesKnown⟩
  renamed _ inj _ hok := h.settled_renamed inj hok
  inTurn := settleInTurn_eq_settleTemplates h.ordered

/-- Templates with one stage each, which gives itself an option under the name of the template. -/
def oneStage (bases : List (String × Option String)) : Dict TemplateSource :=
  bases.map fun p => (p.1, ⟨some [.object [("name", .string "EMG"),
    ("options", .object [(p.1, .null)])]], p.2⟩)

theorem valid_oneStage {bases : List (String × Option String)}
    (ordered : (bases.map (·.1)).Pairwise (· < ·))
    (known : ∀ p ∈ bases, ∀ base, p.2 = some base → base ∈ bases.map (·.1)) :
    Valid (oneStage bases) where
  ordered := List.pairwise_map.2 (List.pairwise_map.1 ordered)
  read p hp := by
    obtain ⟨q, _, rfl⟩ := List.mem_map.1 hp
    exact ⟨_, rfl⟩
  known p hp base hbase := by
    obtain ⟨q, hq, rfl⟩ := List.mem_map.1 hp
    have hnames : Dict.keys (oneStage bases) = bases.map (·.1) := by
      rw [Dict.keys, oneStage, List.map_map]
      rfl
    rw [hnames]
    exact known q hq base hbase

def chained : Dict TemplateSource := oneStage [("a", some "b"), ("b", some "c"), ("c", none)]

/-- A cycle, a template that derives from it, and one on its own. -/
def cyclic : Dict TemplateSource :=
  oneStage [("a", some "b"), ("b", some "a"), ("c", none), ("d", some "a")]

theorem settling_of_samples :
    (settleTemplates chained).isOk = true ∧ Valid chained ∧ Settling chained ∧
      (settleTemplates cyclic).isOk = false ∧ Valid cyclic ∧ Settling cyclic := by
  have hchained : Valid chained := valid_oneStage (by decide) (by decide)
  have hcyclic : Valid cyclic := valid_oneStage (by decide) (by decide)
  exact ⟨by decide +kernel, hchained, settling_of_valid hchained, by decide +kernel, hcyclic,
    settling_of_valid hcyclic⟩

end Catalog
end TaskGen
