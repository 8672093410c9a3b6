import Mathlib.Data.List.Forall2
import TaskGen.Catalog
import TaskGen.Proofs.Catalog.Reading

/-!
What holds of a catalog once it is loaded: the stages of its templates are in the right order,
inherited options or not, and every requirement has a template that is there.

Main statement: `loaded_of_parse`.
-/

namespace TaskGen

/-! ### Results -/

section
variable {α β ε : Type}

theorem exists_of_bind_ok {x : Except ε α} {f : α → Except ε β} {b : β} (h : x >>= f = .ok b) :
    ∃ a, x = .ok a ∧ f a = .ok b := by
  cases x with
  | error e => cases h
  | ok a => exact ⟨a, rfl, h⟩

theorem cases_of_bind_error {x : Except ε α} {f : α → Except ε β} {e : ε}
    (h : x >>= f = .error e) : x = .error e ∨ ∃ a, x = .ok a ∧ f a = .error e := by
  cases x with
  | error e' =>
    cases h
    exact .inl rfl
  | ok a => exact .inr ⟨a, rfl, h⟩

/-- A run that is evaluated, and what is read off its result. -/
theorem exists_of_toOption_map {x : Except ε α} {f : α → β} {b : β}
    (h : x.toOption.map f = some b) : ∃ a, x = .ok a ∧ f a = b := by
  cases x with
  | error e => cases h
  | ok a => exact ⟨a, rfl, Option.some_inj.1 h⟩

variable {f : α → Except ε β} {as : List α}

theorem exists_of_forall₂ {R : α → β → Prop} {bs : List β} (h : List.Forall₂ R as bs) :
    ∀ a ∈ as, ∃ b ∈ bs, R a b := by
  induction h with
  | nil => simp
  | @cons a b as bs hab _ ih =>
    intro a' ha'
    rcases List.mem_cons.1 ha' with rfl | hrest
    · exact ⟨b, List.mem_cons_self, hab⟩
    · obtain ⟨b', hb', hab'⟩ := ih a' hrest
      exact ⟨b', List.mem_cons_of_mem b hb', hab'⟩

theorem forall₂_of_mapM {bs : List β} (h : as.mapM f = .ok bs) :
    List.Forall₂ (fun a b => f a = .ok b) as bs := by
  induction as generalizing bs with
  | nil =>
    cases h
    exact .nil
  | cons a as ih =>
    rw [List.mapM_cons] at h
    obtain ⟨b, ha, hrest⟩ := exists_of_bind_ok h
    obtain ⟨bs', has, hbs⟩ := exists_of_bind_ok hrest
    cases hbs
    exact .cons ha (ih has)

theorem exists_of_mapM_error {e : ε} (h : as.mapM f = .error e) : ∃ a ∈ as, f a = .error e := by
  induction as with
  | nil => cases h
  | cons a as ih =>
    rw [List.mapM_cons] at h
    rcases cases_of_bind_error h with ha | ⟨b, _, hrest⟩
    · exact ⟨a, List.mem_cons_self, ha⟩
    · rcases cases_of_bind_error hrest with has | ⟨bs, _, hbs⟩
      · obtain ⟨a', ha', he⟩ := ih has
        exact ⟨a', List.mem_cons_of_mem a ha', he⟩
      · cases hbs

theorem exists_mapM_ok (h : ∀ a ∈ as, ∃ b, f a = .ok b) : ∃ bs, as.mapM f = .ok bs := by
  cases hmap : as.mapM f with
  | ok bs => exact ⟨bs, rfl⟩
  | error e =>
    obtain ⟨a, ha, herror⟩ := exists_of_mapM_error hmap
    obtain ⟨b, hb⟩ := h a ha
    rw [hb] at herror
    cases herror

end

namespace Catalog

/-! ### Templates -/

theorem misplaced?_eq_none_iff {stages : List ConfiguredStage} :
    misplaced? stages = none ↔
      ∀ c ∈ stages.dropWhile (·.stage.isShared), c.stage.isShared = false := by
  simp [misplaced?]

/-- Whether a stage is misplaced has nothing to do with options. -/
theorem misplaced?_congr {as bs : List ConfiguredStage}
    (h : as.map (·.stage) = bs.map (·.stage)) : misplaced? as = misplaced? bs := by
  have hnames : ∀ stages : List ConfiguredStage, misplaced? stages =
      ((stages.map (·.stage)).dropWhile Stage.isShared).find? Stage.isShared := by
    intro stages
    rw [misplaced?, List.dropWhile_map, List.find?_map]
    rfl
  rw [hnames, hnames, h]

theorem map_stage_inherit (base own : List ConfiguredStage) :
    (inherit base own).map (·.stage) = own.map (·.stage) := by
  rw [inherit, List.map_map]
  refine List.map_congr_left fun c _ => ?_
  show (inheritStage base c).stage = c.stage
  unfold inheritStage
  split
  · rfl
  · rfl

theorem misplaced?_of_settle? {settled : Templates} {t : OpenTemplate}
    (own : misplaced? t.stages = none) {stages : List ConfiguredStage}
    (h : settle? settled t = some stages) : misplaced? stages = none := by
  unfold settle? at h
  split at h
  · cases h
    exact own
  · obtain ⟨base, _, rfl⟩ := Option.map_eq_some_iff.1 h
    rw [misplaced?_congr (map_stage_inherit base t.stages)]
    exact own

/-- In every template the shared stages come first. -/
def Placed (templates : Templates) : Prop := ∀ p ∈ templates, misplaced? p.2 = none

theorem Placed.insert {templates : Templates} (h : Placed templates) (id : String)
    {stages : List ConfiguredStage} (placed : misplaced? stages = none) :
    Placed (Dict.insert templates id stages) := by
  intro p hp
  rcases Dict.mem_of_mem_insert hp with rfl | hold
  · exact placed
  · exact h p hold

theorem settleRound_placed {settled : Templates} (h : Placed settled) {ts : List OpenTemplate}
    (own : ∀ t ∈ ts, misplaced? t.stages = none) : Placed (settleRound settled ts) := by
  refine List.foldlRecOn ts _ h fun acc hacc t ht => hacc.insert t.id ?_
  cases hsettle : settle? settled t with
  | none => rfl
  | some stages => exact misplaced?_of_settle? (own t ht) hsettle

theorem settleAll_placed {settled : Templates} (h : Placed settled) {waiting : List OpenTemplate}
    (own : ∀ t ∈ waiting, misplaced? t.stages = none) : Placed (settleAll settled waiting).1 := by
  induction settled, waiting using settleAll.induct with
  | case1 settled waiting hready =>
    rw [settleAll, dif_pos hready]
    exact h
  | case2 settled waiting hready ih =>
    rw [settleAll, dif_neg hready]
    refine ih (settleRound_placed h fun t ht => ?_) fun t ht => ?_
    · exact own t (List.mem_filter.1 ht).1
    · exact own t (List.mem_filter.1 ht).1

theorem misplaced?_of_ownStages {id : String} {t : TemplateSource} {stages : List ConfiguredStage}
    (h : ownStages id t = .ok stages) : misplaced? stages = none := by
  unfold ownStages at h
  split at h
  · cases h
  · obtain ⟨read, _, hread⟩ := exists_of_bind_ok h
    split at hread
    · cases hread
    · next hplaced =>
      cases hread
      exact hplaced

theorem settleTemplates_placed {sources : Dict TemplateSource} {templates : Templates}
    (h : settleTemplates sources = .ok templates) : Placed templates := by
  obtain ⟨waiting, hwaiting, hrest⟩ := exists_of_bind_ok h
  obtain ⟨_, _, hsettle⟩ := exists_of_bind_ok hrest
  have hown : ∀ t ∈ waiting, misplaced? t.stages = none := by
    intro t ht
    obtain ⟨source, _, hsource⟩ := exists_of_forall₂ (forall₂_of_mapM hwaiting).flip t ht
    obtain ⟨stages, hstages, heq⟩ := exists_of_bind_ok hsource
    cases heq
    exact misplaced?_of_ownStages hstages
  have hplaced := settleAll_placed (fun p hp => absurd hp List.not_mem_nil) hown
  split at hsettle
  · next settled hall =>
    cases hsettle
    rw [hall] at hplaced
    exact hplaced
  · cases hsettle

/-! ### Requirements -/

/-- A requirement can be combined with its template. -/
structure Leaf.Sound (templates : Templates) (leaf : Leaf) : Prop where
  known : Dict.contains templates leaf.template = true
  ordered : ∀ v ∈ leaf.overrides, v.Ordered

/-- What a node gets from the nodes above it is known, and it is written in order itself. -/
structure Visit.Sound (templates : Templates) (v : Visit) : Prop where
  known : ∀ t, v.template = some t → Dict.contains templates t = true
  ordered : v.node.Ordered

theorem contains_of_checkTemplate {templates : Templates} {template : Option String}
    {referrer : String} (h : checkTemplate templates template referrer = .ok ()) :
    ∀ t, template = some t → Dict.contains templates t = true := by
  intro t ht
  rw [ht, checkTemplate] at h
  split at h
  · next hcontains => exact hcontains
  · cases h

/-- The template that a node hands down is known, be it its own or not. -/
theorem Visit.Sound.known_or {templates : Templates} {v : Visit} (h : v.Sound templates)
    {referrer : String} (own : checkTemplate templates v.node.template referrer = .ok ()) :
    ∀ t, v.node.template.or v.template = some t → Dict.contains templates t = true := by
  intro t ht
  rcases Option.or_eq_some_iff.1 ht with hown | ⟨_, hinherited⟩
  · exact contains_of_checkTemplate own t hown
  · exact h.known t hinherited

theorem sound_of_mem_visits {templates : Templates} {path : String} {template : Option String}
    {nodes : List Node} (known : ∀ t, template = some t → Dict.contains templates t = true)
    (ordered : ∀ n ∈ nodes, n.Ordered) : ∀ v ∈ visits path template nodes, v.Sound templates := by
  intro v hv
  obtain ⟨n, hn, rfl⟩ := List.mem_map.1 hv
  exact ⟨known, ordered n hn⟩

structure Collected (templates : Templates) (leaves : Dict Leaf) : Prop where
  ordered : Dict.Ordered leaves
  sound : ∀ p ∈ leaves, p.2.Sound templates

theorem Collected.insert {templates : Templates} {leaves : Dict Leaf}
    (h : Collected templates leaves) (id : String) {leaf : Leaf} (sound : leaf.Sound templates) :
    Collected templates (Dict.insert leaves id leaf) where
  ordered := h.ordered.insert id leaf
  sound p hp := by
    rcases Dict.mem_of_mem_insert hp with rfl | hold
    · exact sound
    · exact h.sound p hold

theorem walk_collected {templates : Templates} {leaves leaves' : Dict Leaf} {vs : List Visit}
    (h : walk templates leaves vs = .ok leaves') (collected : Collected templates leaves)
    (sound : ∀ v ∈ vs, v.Sound templates) : Collected templates leaves' := by
  fun_induction walk templates leaves vs with
  | case1 leaves =>
    cases h
    exact collected
  | case2 | case3 | case4 | case6 | case7 => cases h
  | case5 leaves path inherited node rest own hid id hcheck template children hchildren _ ih =>
    have hvisit := sound ⟨path, inherited, node⟩ List.mem_cons_self
    refine ih h collected fun v hv => ?_
    rcases List.mem_append.1 hv with hchild | hrest
    · have hordered : ∀ n ∈ children, n.Ordered := fun n hn =>
        hvisit.ordered.of_mem_children hchildren hn
      exact sound_of_mem_visits (hvisit.known_or hcheck) hordered v hchild
    · exact sound v (List.mem_cons_of_mem _ hrest)
  | case8 leaves path inherited node rest own hid id hcheck template hchildren t ht hnew ih =>
    have hvisit := sound ⟨path, inherited, node⟩ List.mem_cons_self
    have hordered : ∀ v ∈ node.plugins.getD [], v.Ordered := fun v hv =>
      hvisit.ordered.of_mem_plugins hv
    refine ih h (collected.insert id ⟨hvisit.known_or hcheck t ht, hordered⟩) fun v hv => ?_
    exact sound v (List.mem_cons_of_mem _ hv)

theorem flatten_collected {templates : Templates} {root : Node} {leaves : Dict Leaf}
    (h : flatten templates root = .ok leaves) (ordered : root.Ordered) :
    Collected templates leaves := by
  obtain ⟨_, hcheck, hrest⟩ := exists_of_bind_ok h
  split at hrest
  · cases hrest
  · next children hchildren =>
    refine walk_collected hrest ⟨.nil, fun p hp => absurd hp List.not_mem_nil⟩ ?_
    exact sound_of_mem_visits (contains_of_checkTemplate hcheck) fun n hn =>
      ordered.of_mem_children hchildren hn

/-! ### Catalogs -/

/-- What selection relies on. -/
structure Loaded (c : Catalog) : Prop where
  placed : Placed c.templates
  collected : Collected c.templates c.leaves

/-- The templates and the tree that a catalog is read from. -/
theorem parts_of_ofSource {s : Source} {c : Catalog} (h : ofSource s = .ok c) :
    ∃ sources root, s.templates = some sources ∧ s.root = some root ∧
      settleTemplates sources = .ok c.templates ∧ flatten c.templates root = .ok c.leaves := by
  unfold ofSource at h
  split at h
  · cases h
  · next sources hsources =>
    split at h
    · cases h
    · next root hroot =>
      obtain ⟨templates, htemplates, hrest⟩ := exists_of_bind_ok h
      obtain ⟨leaves, hleaves, heq⟩ := exists_of_bind_ok hrest
      cases heq
      exact ⟨sources, root, hsources, hroot, htemplates, hleaves⟩

theorem loaded_of_ofSource {s : Source} {c : Catalog} (h : ofSource s = .ok c)
    (ordered : ∀ root, s.root = some root → root.Ordered) : Loaded c := by
  obtain ⟨sources, root, _, hroot, htemplates, hleaves⟩ := parts_of_ofSource h
  exact ⟨settleTemplates_placed htemplates, flatten_collected hleaves (ordered root hroot)⟩

theorem loaded_of_parse {text : String} {c : Catalog} (h : Catalog.parse text = .ok c) :
    Loaded c := by
  obtain ⟨s, hs, hsource⟩ := exists_of_bind_ok h
  exact loaded_of_ofSource hsource fun root hroot => ordered_of_parse hs hroot

end Catalog
end TaskGen
