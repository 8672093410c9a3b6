import TaskGen.Proofs.Catalog.Loading
import TaskGen.Proofs.Dict

/-!
The requirements that are selected from a catalog.  A requirement has the stages of its template
in their order, and among the values that are given for an option the last one counts.  What is
checked when a catalog is loaded need not be checked again: a selection fails because of its
patterns and because of overrides, and of nothing else.

Main statement: `select_of_parse`.
-/

namespace TaskGen
namespace Catalog

/-! ### Values of options -/

def value? (stages : List ConfiguredStage) (kind : Stage) (key : String) : Option Json.Value :=
  (stages.find? (·.stage == kind)).bind fun c => Dict.find? c.options key

def overrideValue? (kind : Stage) (key : String) : Json.Value → Option Json.Value
  | .object members =>
    match Dict.find? members "name", Dict.find? members "options" with
    | some (.string name), some (.object options) =>
      if name = kind.name then Dict.find? options key else none
    | _, _ => none
  | _ => none

/-- The value of the last override that has one. -/
def overridden? (overrides : List Json.Value) (kind : Stage) (key : String) : Option Json.Value :=
  (overrides.filterMap (overrideValue? kind key)).getLast?

theorem overridden?_cons (v : Json.Value) (overrides : List Json.Value) (kind : Stage)
    (key : String) : overridden? (v :: overrides) kind key =
      (overridden? overrides kind key).or (overrideValue? kind key v) := by
  unfold overridden?
  rw [List.filterMap_cons]
  cases overrideValue? kind key v with
  | none => simp
  | some value =>
    show (value :: _).getLast? = _
    rw [List.getLast?_cons]
    cases (overrides.filterMap (overrideValue? kind key)).getLast? with
    | none => rfl
    | some last => rfl

theorem value?_cons (c : ConfiguredStage) (rest : List ConfiguredStage) (kind : Stage)
    (key : String) : value? (c :: rest) kind key =
      if c.stage = kind then Dict.find? c.options key else value? rest kind key := by
  unfold value?
  rw [List.find?_cons]
  by_cases h : c.stage = kind
  · simp [h]
  · have hbeq : (c.stage == kind) = false := by simpa using h
    simp [h, hbeq]

/-! ### One override -/

theorem map_stage_override? {stage : Stage} {options : Options}
    {pipeline next : List ConfiguredStage} (h : override? stage options pipeline = some next) :
    next.map (·.stage) = pipeline.map (·.stage) := by
  induction pipeline generalizing next with
  | nil => cases h
  | cons c rest ih =>
    rw [override?] at h
    split at h
    · cases h
      rfl
    · obtain ⟨next', hnext, rfl⟩ := Option.map_eq_some_iff.1 h
      show c.stage :: next'.map (·.stage) = c.stage :: rest.map (·.stage)
      rw [ih hnext]

theorem notMem_of_override? {stage : Stage} {options : Options} {pipeline : List ConfiguredStage}
    (h : override? stage options pipeline = none) : stage ∉ pipeline.map (·.stage) := by
  induction pipeline with
  | nil => simp
  | cons c rest ih =>
    rw [override?] at h
    split at h
    · cases h
    · next hstage =>
      have hrest := ih (Option.map_eq_none_iff.1 h)
      have hhead : stage ≠ c.stage := fun heq => hstage heq.symm
      simp [hhead, hrest]

/-- Options of no other kind of stage change. -/
theorem value?_override? {stage : Stage} {options : Options} {pipeline next : List ConfiguredStage}
    (h : override? stage options pipeline = some next) (ordered : Dict.Ordered options)
    (kind : Stage) (key : String) : value? next kind key =
      (if stage = kind then Dict.find? options key else none).or (value? pipeline kind key) := by
  induction pipeline generalizing next with
  | nil => cases h
  | cons c rest ih =>
    rw [override?] at h
    split at h
    · next hstage =>
      cases h
      rw [value?_cons, value?_cons]
      show (if c.stage = kind then Dict.find? (Dict.extend c.options options) key else _) = _
      rw [Dict.find?_extend ordered.nodup_keys, hstage]
      by_cases hkind : stage = kind
      · simp [hkind]
      · simp [hkind]
    · next hstage =>
      obtain ⟨next', hnext, rfl⟩ := Option.map_eq_some_iff.1 h
      rw [value?_cons, value?_cons, ih hnext]
      by_cases hkind : c.stage = kind
      · have hother : stage ≠ kind := fun heq => hstage (hkind.trans heq.symm)
        simp [hkind, hother]
      · simp [hkind]

theorem name_of_ofName {name : String} {stage : Stage} (h : Stage.ofName name = .ok stage) :
    stage.name = name := by
  unfold Stage.ofName at h
  split at h
  · next found hfound =>
    cases h
    simpa using List.find?_some hfound
  · cases h

theorem eq_string_of_string? {v : Json.Value} {s : String} (h : v.string? = some s) :
    v = .string s := by
  cases v with
  | string t =>
    cases h
    rfl
  | _ => cases h

theorem readPlugin_ok {owner : String} {index : Nat} {v : Json.Value} {stage : Stage}
    {options : Options} (h : readPlugin owner index true v = .ok (stage, options)) :
    ∃ members, v = .object members ∧ Dict.find? members "name" = some (.string stage.name) ∧
      Dict.find? members "options" = some (.object options) := by
  unfold readPlugin at h
  split at h
  · next members =>
    split at h
    · cases h
    · next name hname =>
      obtain ⟨named, hnamed, hstring⟩ := Option.bind_eq_some_iff.1 hname
      split at h
      · cases h
      · next stage' hstage =>
        split at h
        · next options' hoptions =>
          cases h
          rw [eq_string_of_string? hstring, ← name_of_ofName hstage] at hnamed
          exact ⟨members, rfl, hnamed, hoptions⟩
        · cases h
        · cases h
  · cases h

theorem readPlugin_error {owner : String} {index : Nat} {v : Json.Value} {e : Error}
    (h : readPlugin owner index true v = .error e) :
    (∃ fault, e = .invalidPlugin owner index fault) ∨ ∃ name, e = .unknownPlugin owner name := by
  unfold readPlugin at h
  split at h
  · split at h
    · cases h
      exact .inl ⟨_, rfl⟩
    · next name hname =>
      split at h
      · cases h
        exact .inr ⟨name, rfl⟩
      · split at h
        · cases h
        · cases h
          exact .inl ⟨_, rfl⟩
        · cases h
          exact .inl ⟨_, rfl⟩
  · cases h
    exact .inl ⟨_, rfl⟩

theorem pluginName_of_readPlugin_unknown {owner owner' name : String} {index : Nat}
    {v : Json.Value} (h : readPlugin owner index true v = .error (.unknownPlugin owner' name)) :
    pluginName v = name ∧ ∀ stage : Stage, stage.name ≠ name := by
  unfold readPlugin at h
  split at h
  · next members =>
    split at h
    · cases h
    · next name' hname =>
      split at h
      · next unknown hunknown =>
        cases h
        refine ⟨by rw [pluginName, hname]; rfl, fun stage heq => ?_⟩
        rw [← heq, Stage.ofName_name] at hunknown
        cases hunknown
      · split at h
        · cases h
        · cases h
        · cases h
  · cases h

theorem pluginName_of_readPlugin {owner : String} {index : Nat} {v : Json.Value} {stage : Stage}
    {options : Options} (h : readPlugin owner index true v = .ok (stage, options)) :
    pluginName v = stage.name := by
  obtain ⟨members, rfl, hname, _⟩ := readPlugin_ok h
  rw [pluginName, hname]
  rfl

theorem overrideValue?_of_readPlugin {owner : String} {index : Nat} {v : Json.Value} {stage : Stage}
    {options : Options} (h : readPlugin owner index true v = .ok (stage, options)) (kind : Stage)
    (key : String) :
    overrideValue? kind key v = if stage = kind then Dict.find? options key else none := by
  obtain ⟨members, rfl, hname, hoptions⟩ := readPlugin_ok h
  simp only [overrideValue?, hname, hoptions]
  by_cases hkind : stage = kind
  · simp [hkind]
  · have hother : stage.name ≠ kind.name := fun heq => hkind (Stage.name_injective heq)
    simp [hkind, hother]

theorem ordered_of_readPlugin {owner : String} {index : Nat} {v : Json.Value} {stage : Stage}
    {options : Options} (h : readPlugin owner index true v = .ok (stage, options))
    (ordered : v.Ordered) : Dict.Ordered options := by
  obtain ⟨members, rfl, _, hoptions⟩ := readPlugin_ok h
  have hvalue : (Json.Value.object options).Ordered := ordered.of_mem (Dict.mem_of_find? hoptions)
  exact hvalue.1

/-! ### All overrides of a requirement -/

/-- A pipeline after its overrides.  Stages keep their kinds, and the last value counts. -/
structure Overridden (overrides : List Json.Value) (before after : List ConfiguredStage) :
    Prop where
  stages : after.map (·.stage) = before.map (·.stage)
  values : ∀ kind key,
    value? after kind key = (overridden? overrides kind key).or (value? before kind key)

theorem Overridden.cons {id : String} {index : Nat} {v : Json.Value} {rest : List Json.Value}
    {stage : Stage} {options : Options} {before next after : List ConfiguredStage}
    (ordered : v.Ordered) (read : readPlugin id index true v = .ok (stage, options))
    (first : override? stage options before = some next) (h : Overridden rest next after) :
    Overridden (v :: rest) before after where
  stages := h.stages.trans (map_stage_override? first)
  values kind key := by
    rw [h.values, overridden?_cons, overrideValue?_of_readPlugin read,
      value?_override? first (ordered_of_readPlugin read ordered), Option.or_assoc]

/-- A plugin that is not in the pipeline is not forgotten. -/
theorem prefix_of_applyOverrides {id : String} {index : Nat} {overrides : List Json.Value}
    {before after : List ConfiguredStage} {strangers strangers' : List String}
    (h : applyOverrides id index overrides before strangers = .ok (after, strangers')) :
    strangers <+: strangers' := by
  fun_induction applyOverrides id index overrides before strangers with
  | case1 =>
    cases h
    exact List.prefix_rfl
  | case2 _ _ _ _ _ _ _ _ ih => exact (List.prefix_append _ _).trans (ih h)
  | case3 => cases h
  | case4 _ _ _ _ _ _ _ _ _ _ ih => exact ih h
  | case5 _ _ _ _ _ _ _ _ _ ih => exact (List.prefix_append _ _).trans (ih h)

theorem not_stranger {id : String} {index : Nat} {overrides : List Json.Value}
    {before after : List ConfiguredStage} {strangers : List String} {name : String}
    (h : applyOverrides id index overrides before (strangers ++ [name]) = .ok (after, [])) :
    False := by
  have hnil := List.prefix_nil.1 (prefix_of_applyOverrides h)
  simp at hnil

theorem overridden_of_applyOverrides {id : String} {index : Nat} {overrides : List Json.Value}
    {before after : List ConfiguredStage} {strangers : List String}
    (h : applyOverrides id index overrides before strangers = .ok (after, []))
    (ordered : ∀ v ∈ overrides, v.Ordered) : Overridden overrides before after := by
  fun_induction applyOverrides id index overrides before strangers with
  | case1 =>
    cases h
    exact ⟨rfl, fun kind key => rfl⟩
  | case2 => exact (not_stranger h).elim
  | case3 => cases h
  | case4 index v rest before strangers stage options hread next hfirst ih =>
    have hrest := ih h fun w hw => ordered w (List.mem_cons_of_mem v hw)
    exact hrest.cons (ordered v List.mem_cons_self) hread hfirst
  | case5 => exact (not_stranger h).elim

theorem invalid_of_applyOverrides {id : String} {index : Nat} {overrides : List Json.Value}
    {pipeline : List ConfiguredStage} {strangers : List String} {e : Error}
    (h : applyOverrides id index overrides pipeline strangers = .error e) :
    ∃ n v fault, overrides[n]? = some v ∧ e = .invalidPlugin id (index + n) fault ∧
      readPlugin id (index + n) true v = .error e := by
  fun_induction applyOverrides id index overrides pipeline strangers with
  | case1 => cases h
  | case2 index v rest _ _ _ _ _ ih | case4 index v rest _ _ _ _ _ _ _ ih
  | case5 index v rest _ _ _ _ _ _ ih =>
    obtain ⟨n, w, fault, hw, he, hread⟩ := ih h
    rw [Nat.add_assoc, Nat.add_comm 1 n] at he hread
    exact ⟨n + 1, w, fault, hw, he, hread⟩
  | case3 index v rest pipeline strangers e' hknown hread =>
    cases h
    rcases readPlugin_error hread with ⟨fault, rfl⟩ | ⟨name, rfl⟩
    · exact ⟨0, v, fault, rfl, rfl, hread⟩
    · exact (hknown id name rfl).elim

/-- An override of a plugin with this name, which is not in the pipeline. -/
def Strange (pipeline : List ConfiguredStage) (name : String) (v : Json.Value) : Prop :=
  pluginName v = name ∧ ∀ stage ∈ pipeline.map (·.stage), stage.name ≠ name

theorem mem_or_strange {pipeline : List ConfiguredStage} {strangers : List String} {name : String}
    {v : Json.Value} {rest : List Json.Value} (strange : Strange pipeline (pluginName v) v)
    (h : name ∈ strangers ++ [pluginName v] ∨ ∃ w ∈ rest, Strange pipeline name w) :
    name ∈ strangers ∨ ∃ w ∈ v :: rest, Strange pipeline name w := by
  rcases h with hmem | ⟨w, hw, hstrange⟩
  · rcases List.mem_append.1 hmem with hold | hnew
    · exact .inl hold
    · rw [List.mem_singleton.1 hnew]
      exact .inr ⟨v, List.mem_cons_self, strange⟩
  · exact .inr ⟨w, List.mem_cons_of_mem v hw, hstrange⟩

theorem strange_of_applyOverrides {id : String} {index : Nat} {overrides : List Json.Value}
    {before after : List ConfiguredStage} {strangers strangers' : List String}
    (h : applyOverrides id index overrides before strangers = .ok (after, strangers')) :
    ∀ name ∈ strangers', name ∈ strangers ∨ ∃ v ∈ overrides, Strange before name v := by
  intro name hname
  fun_induction applyOverrides id index overrides before strangers with
  | case1 =>
    cases h
    exact .inl hname
  | case2 index v rest before strangers owner unknown hread ih =>
    obtain ⟨hplugin, hnone⟩ := pluginName_of_readPlugin_unknown hread
    refine mem_or_strange ⟨rfl, fun stage _ => ?_⟩ (ih h)
    rw [hplugin]
    exact hnone stage
  | case3 => cases h
  | case4 index v rest before strangers stage options hread next hfirst ih =>
    have hrest := ih h
    unfold Strange at hrest
    rw [map_stage_override? hfirst] at hrest
    refine hrest.imp_right fun ⟨w, hw, hstrange⟩ => ?_
    exact ⟨w, List.mem_cons_of_mem v hw, hstrange⟩
  | case5 index v rest before strangers stage options hread hnone ih =>
    refine mem_or_strange ⟨rfl, fun other hother heq => ?_⟩ (ih h)
    rw [pluginName_of_readPlugin hread] at heq
    rw [Stage.name_injective heq] at hother
    exact notMem_of_override? hnone hother

/-! ### Requirements -/

def Accepted (E : Pattern.Engine) (patterns : List String) (id : String) : Prop :=
  ∃ p ∈ patterns, ∃ compiled, E.ofString? p = some compiled ∧ compiled.accepts id = true

inductive Fault (E : Pattern.Engine) (c : Catalog) (patterns : List String) : Error → Prop where
  | invalidPattern {p : String} (mem : p ∈ patterns) (unread : E.ofString? p = none) :
    Fault E c patterns (.invalidPattern p)
  /-- Whatever such a pattern accepts is accepted by one before it. -/
  | unmatchedPatterns {ps : List String} (ne_nil : ps ≠ [])
      (unmatched : ∀ p ∈ ps, ∃ i, patterns[i]? = some p ∧
        ∀ id ∈ c.identifiers, Accepted E [p] id → Accepted E (patterns.take i) id) :
    Fault E c patterns (.unmatchedPatterns ps)
  | invalidPlugin {id : String} {leaf : Leaf} {index : Nat} {v : Json.Value} {fault : PluginFault}
      (accepted : Accepted E patterns id) (described : Dict.find? c.leaves id = some leaf)
      (override : leaf.overrides[index]? = some v)
      (invalid : readPlugin id index true v = .error (.invalidPlugin id index fault)) :
    Fault E c patterns (.invalidPlugin id index fault)
  | unmatchedPlugins {id : String} {leaf : Leaf} {stages : List ConfiguredStage}
      {names : List String} (accepted : Accepted E patterns id)
      (described : Dict.find? c.leaves id = some leaf)
      (settled : Dict.find? c.templates leaf.template = some stages) (ne_nil : names ≠ [])
      (strange : ∀ name ∈ names, ∃ v ∈ leaf.overrides, Strange stages name v) :
    Fault E c patterns (.unmatchedPlugins id names)

/-- A requirement as it is selected.  Stages that can be run once for many requirements are all
in front. -/
structure Resolved (c : Catalog) (r : Requirement) (leaf : Leaf) (stages : List ConfiguredStage) :
    Prop where
  described : Dict.find? c.leaves r.identifier = some leaf
  settled : Dict.find? c.templates leaf.template = some stages
  kinds : r.pipeline.map (·.stage) = stages.map (·.stage)
  shared : r.sharedStages =
    r.pipeline.filter fun a => a.stage = .sourceAnalysis ∨ a.stage = .environmentModel
  own : ∀ a ∈ r.ownStages, a.stage ≠ .sourceAnalysis ∧ a.stage ≠ .environmentModel
  values : ∀ kind key, value? r.pipeline kind key =
    (overridden? leaf.overrides kind key).or (value? stages kind key)

theorem isShared_eq (stage : Stage) :
    stage.isShared = decide (stage = .sourceAnalysis ∨ stage = .environmentModel) := by
  cases stage <;> rfl

theorem own_of_placed {r : Requirement} (placed : misplaced? r.pipeline = none) :
    ∀ a ∈ r.ownStages, a.stage.isShared = false := misplaced?_eq_none_iff.1 placed

theorem sharedStages_of_placed {r : Requirement} (placed : misplaced? r.pipeline = none) :
    r.sharedStages = r.pipeline.filter (·.stage.isShared) := by
  have hown : r.ownStages.filter (·.stage.isShared) = [] := by
    rw [List.filter_eq_nil_iff]
    intro a ha
    simp [own_of_placed placed a ha]
  have hshared : r.sharedStages.filter (·.stage.isShared) = r.sharedStages :=
    List.filter_eq_self.2 fun a ha => Requirement.isShared_of_mem_sharedStages ha
  calc r.sharedStages
      = (r.sharedStages ++ r.ownStages).filter (·.stage.isShared) := by
        rw [List.filter_append, hown, hshared, List.append_nil]
    _ = r.pipeline.filter (·.stage.isShared) := by rw [r.sharedStages_append_ownStages]

theorem resolved_of_resolve {c : Catalog} (loaded : Loaded c) {id : String} {r : Requirement}
    (h : c.resolve id = .ok r) : r.identifier = id ∧ ∃ leaf stages, Resolved c r leaf stages := by
  unfold resolve at h
  split at h
  · cases h
  · next leaf hleaf =>
    split at h
    · cases h
    · next stages hstages =>
      obtain ⟨⟨pipeline, strangers⟩, happlied, hdone⟩ := exists_of_bind_ok h
      dsimp only at hdone
      split at hdone
      · next hnone =>
        cases hdone
        rw [List.isEmpty_iff.1 hnone] at happlied
        have hsound := loaded.collected.sound _ (Dict.mem_of_find? hleaf)
        have hover := overridden_of_applyOverrides happlied hsound.ordered
        have hplaced : misplaced? pipeline = none := by
          rw [misplaced?_congr hover.stages]
          exact loaded.placed _ (Dict.mem_of_find? hstages)
        refine ⟨rfl, leaf, stages, hleaf, hstages, hover.stages, ?_, ?_, hover.values⟩
        · simp only [← isShared_eq]
          exact sharedStages_of_placed hplaced
        · intro a ha
          have hown := own_of_placed hplaced a ha
          rw [isShared_eq] at hown
          simpa using hown
      · cases hdone

variable {E : Pattern.Engine}

theorem fault_of_resolve {c : Catalog} (loaded : Loaded c) {patterns : List String} {id : String}
    (mem : id ∈ c.identifiers) (accepted : Accepted E patterns id) {e : Error}
    (h : c.resolve id = .error e) : Fault E c patterns e := by
  unfold resolve at h
  split at h
  · next hnone => exact (Dict.find?_eq_none_iff.1 hnone mem).elim
  · next leaf hleaf =>
    split at h
    · next hnone =>
      have hsound := loaded.collected.sound _ (Dict.mem_of_find? hleaf)
      have hknown := hsound.known
      unfold Dict.contains at hknown
      simp [hnone] at hknown
    · next stages hstages =>
      rcases cases_of_bind_error h with happlied | ⟨⟨pipeline, strangers⟩, happlied, hdone⟩
      · obtain ⟨index, v, fault, hv, rfl, hread⟩ := invalid_of_applyOverrides happlied
        rw [Nat.zero_add] at hread ⊢
        exact .invalidPlugin accepted hleaf hv hread
      · dsimp only at hdone
        split at hdone
        · cases hdone
        · next hsome =>
          cases hdone
          refine .unmatchedPlugins accepted hleaf hstages ?_ fun name hname => ?_
          · simpa using hsome
          · have hstrange := strange_of_applyOverrides happlied name hname
            exact hstrange.resolve_left List.not_mem_nil

/-! ### Patterns -/

def Compiled (E : Pattern.Engine) (patterns : List String) (compiled : List Pattern) : Prop :=
  List.Forall₂ (fun p q => E.ofString? p = some q) patterns compiled

theorem compiled_of_compile {patterns : List String} {compiled : List Pattern}
    (h : compile E patterns = .ok compiled) : Compiled E patterns compiled := by
  refine (forall₂_of_mapM h).imp fun p q hq => ?_
  split at hq
  · next hsome =>
    cases hq
    exact hsome
  · cases hq

theorem fault_of_compile {c : Catalog} {patterns : List String} {e : Error}
    (h : compile E patterns = .error e) : Fault E c patterns e := by
  obtain ⟨p, hp, hpattern⟩ := exists_of_mapM_error h
  split at hpattern
  · cases hpattern
  · next hnone =>
    cases hpattern
    exact .invalidPattern hp hnone

theorem Compiled.exists_accepts_iff {patterns : List String} {compiled : List Pattern}
    (h : Compiled E patterns compiled) (id : String) :
    (∃ q ∈ compiled, q.accepts id = true) ↔ Accepted E patterns id := by
  constructor
  · rintro ⟨q, hq, haccepts⟩
    obtain ⟨p, hp, hpq⟩ := exists_of_forall₂ h.flip q hq
    exact ⟨p, hp, q, hpq, haccepts⟩
  · rintro ⟨p, hp, q, hpq, haccepts⟩
    obtain ⟨q', hq', hpq'⟩ := exists_of_forall₂ h p hp
    rw [hpq] at hpq'
    cases hpq'
    exact ⟨q, hq', haccepts⟩

theorem Compiled.isSome_firstMatch?_iff {patterns : List String} {compiled : List Pattern}
    (h : Compiled E patterns compiled) (id : String) :
    (firstMatch? compiled id).isSome = true ↔ Accepted E patterns id := by
  rw [firstMatch?, List.findIdx?_isSome, List.any_eq_true]
  exact h.exists_accepts_iff id

/-- A pattern that is the first match of nothing accepts nothing on its own. -/
theorem Compiled.accepted_take {patterns : List String} {compiled : List Pattern}
    (h : Compiled E patterns compiled) {id p : String} {i : Nat} (hp : patterns[i]? = some p)
    (accepted : Accepted E [p] id) (later : firstMatch? compiled id ≠ some i) :
    Accepted E (patterns.take i) id := by
  obtain ⟨p', hp', q, hq, haccepts⟩ := accepted
  rw [List.mem_singleton.1 hp'] at hq
  obtain ⟨hi, hpi⟩ := List.getElem?_eq_some_iff.1 hp
  have hi' : i < compiled.length := by
    rw [← h.length_eq]
    exact hi
  have hqi : compiled[i] = q := by
    have hread : E.ofString? patterns[i] = some compiled[i] := h.get hi hi'
    rw [hpi, hq] at hread
    exact (Option.some.inj hread).symm
  have haccepted : Accepted E patterns id := ⟨p, List.mem_of_getElem? hp, q, hq, haccepts⟩
  obtain ⟨j, hj⟩ := Option.isSome_iff_exists.1 ((h.isSome_firstMatch?_iff id).2 haccepted)
  obtain ⟨hlt, hfirst, hbefore⟩ := List.findIdx?_eq_some_iff_getElem.1 hj
  have hne : j ≠ i := fun heq => later (heq ▸ hj)
  have hle : ¬ i < j := by
    intro hij
    refine hbefore i hij ?_
    rw [hqi]
    exact haccepts
  have htake : Compiled E (patterns.take i) (compiled.take i) := List.forall₂_take i h
  refine (htake.exists_accepts_iff id).1 ⟨compiled[j], ?_, hfirst⟩
  exact List.mem_take_iff_getElem.2 ⟨j, by omega, rfl⟩

theorem fault_of_unmatched {c : Catalog} {patterns : List String} {compiled : List Pattern}
    (h : Compiled E patterns compiled) (ne_nil : unmatched c.identifiers compiled patterns ≠ []) :
    Fault E c patterns (.unmatchedPatterns (unmatched c.identifiers compiled patterns)) := by
  refine .unmatchedPatterns ne_nil fun p hp => ?_
  obtain ⟨⟨p', i⟩, hmem, rfl⟩ := List.mem_map.1 hp
  obtain ⟨hzip, hmissed⟩ := List.mem_filter.1 hmem
  have hget := List.mem_zipIdx_iff_getElem?.1 hzip
  refine ⟨i, hget, fun id hid haccepted => h.accepted_take hget haccepted fun hfirst => ?_⟩
  have hhit : i ∈ c.identifiers.filterMap (firstMatch? compiled) :=
    List.mem_filterMap.2 ⟨id, hid, hfirst⟩
  simp [hhit] at hmissed

/-! ### Selections -/

/-- What is selected: the accepted requirements of the catalog, each once and in the order of their
identifiers. -/
structure Selection (E : Pattern.Engine) (c : Catalog) (patterns : List String)
    (rs : List Requirement) : Prop where
  sorted : (rs.map (·.identifier)).Pairwise (· < ·)
  exact : ∀ id, id ∈ rs.map (·.identifier) ↔ id ∈ c.identifiers ∧ Accepted E patterns id
  resolved : ∀ r ∈ rs, ∃ leaf stages, Resolved c r leaf stages

theorem selection_of_select {c : Catalog} (loaded : Loaded c) {patterns : List String}
    {rs : List Requirement} (h : c.select patterns E = .ok rs) : Selection E c patterns rs := by
  obtain ⟨compiled, hcompiled, hrest⟩ := exists_of_bind_ok h
  dsimp only at hrest
  split at hrest
  · cases hrest
  · have hresolve := forall₂_of_mapM hrest
    have hidentifiers : rs.map (·.identifier) =
        c.identifiers.filter fun id => (firstMatch? compiled id).isSome := by
      have hsame := hresolve.imp fun id r hid => (resolved_of_resolve loaded hid).1.symm
      rw [← List.forall₂_map_right_iff, List.forall₂_eq_eq_eq] at hsame
      exact hsame.symm
    refine ⟨?_, ?_, ?_⟩
    · rw [hidentifiers]
      have hsorted : c.identifiers.Pairwise (· < ·) :=
        List.pairwise_map.2 loaded.collected.ordered
      exact hsorted.filter _
    · intro id
      rw [hidentifiers, List.mem_filter, (compiled_of_compile hcompiled).isSome_firstMatch?_iff]
    · intro r hr
      obtain ⟨id, _, hid⟩ := exists_of_forall₂ hresolve.flip r hr
      exact (resolved_of_resolve loaded hid).2

theorem fault_of_select {c : Catalog} (loaded : Loaded c) {patterns : List String} {e : Error}
    (h : c.select patterns E = .error e) : Fault E c patterns e := by
  rcases cases_of_bind_error h with hcompile | ⟨compiled, hcompiled, hrest⟩
  · exact fault_of_compile hcompile
  · have hread := compiled_of_compile hcompiled
    dsimp only at hrest
    split at hrest
    · next hmissing =>
      cases hrest
      refine fault_of_unmatched hread ?_
      simpa using hmissing
    · obtain ⟨id, hid, hresolve⟩ := exists_of_mapM_error hrest
      obtain ⟨hmem, hfirst⟩ := List.mem_filter.1 hid
      exact fault_of_resolve loaded hmem ((hread.isSome_firstMatch?_iff id).1 hfirst) hresolve

/-- Nothing that was checked when the catalog was loaded can go wrong with a selection. -/
theorem select_of_parse {text : String} {c : Catalog} (parsed : Catalog.parse text = .ok c)
    (patterns : List String) (E : Pattern.Engine) :
    (∀ e, c.select patterns E = .error e → Fault E c patterns e) ∧
      ∀ rs, c.select patterns E = .ok rs → Selection E c patterns rs := by
  have hloaded := loaded_of_parse parsed
  constructor
  · intro e he
    exact fault_of_select hloaded he
  · intro rs hrs
    exact selection_of_select hloaded hrs

def sampleText : String :=
  let plugin := fun options => Json.Value.array [.object (("name", .string "EMG") :: options)]
  let template := .object [("plugins", plugin [])]
  let requirement := .object [("identifier", .string "x"),
    ("plugins", plugin [("options", .object [("k", .null)])]), ("template", .string "t")]
  (Json.Value.object [("requirement specifications", .object [("children", .array [requirement])]),
    ("templates", .object [("t", template)])]).compact

set_option maxRecDepth 100000 in
theorem select_of_sample : ∃ c rs, Catalog.parse sampleText = .ok c ∧
    c.select ["x"] = .ok rs ∧ rs.map (·.identifier) = ["x"] ∧ Selection .standard c ["x"] rs := by
  have hnames : ((Catalog.parse sampleText).bind (·.select ["x"])).toOption.map
      (List.map (·.identifier)) = some ["x"] := by
    decide +kernel
  obtain ⟨rs, hrs, hids⟩ := Option.map_eq_some_iff.1 hnames
  cases hrun : (Catalog.parse sampleText).bind (·.select ["x"]) with
  | error e =>
    rw [hrun] at hrs
    cases hrs
  | ok rs' =>
    rw [hrun] at hrs
    cases hrs
    obtain ⟨c, hparse, hselect⟩ := exists_of_bind_ok hrun
    exact ⟨c, rs, hparse, hselect, hids, (select_of_parse hparse ["x"] .standard).2 rs hselect⟩

end Catalog
end TaskGen
