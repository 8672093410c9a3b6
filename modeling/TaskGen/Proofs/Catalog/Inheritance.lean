import TaskGen.Catalog.Worklist
import TaskGen.Proofs.Catalog.Loading
import TaskGen.Proofs.Dict

/-!
What it means for a template to inherit options, and that rounds come to exactly that.  A template
is grounded if its chain of bases ends.  The meaning of a grounded template is read off its chain,
whatever the identifiers are and in whatever order templates are settled.

Main statement: `outcome_of_rounds`.
-/

namespace TaskGen
namespace Catalog

/-! ### Chains of bases -/

/-- The template that so many bases lead to, if there are as many. -/
def ancestor? (sources : Dict TemplateSource) : Nat → String → Option String
  | 0, id => some id
  | n + 1, id => (base? sources id).bind (ancestor? sources n)

def Grounded (sources : Dict TemplateSource) (id : String) : Prop :=
  ∃ n, ancestor? sources n id = none

variable {sources : Dict TemplateSource} {id base : String}

theorem base?_of_find? {t : TemplateSource} (h : Dict.find? sources id = some t) :
    base? sources id = t.base := by
  rw [base?, h]
  rfl

theorem mem_keys_of_base? (h : base? sources id = some base) : id ∈ Dict.keys sources := by
  obtain ⟨t, hfind, _⟩ := Option.bind_eq_some_iff.1 h
  exact Dict.mem_keys_iff.2 ⟨t, hfind⟩

theorem ancestor?_succ (h : base? sources id = some base) (n : Nat) :
    ancestor? sources (n + 1) id = ancestor? sources n base := by
  rw [ancestor?, h]
  rfl

theorem Grounded.root (h : base? sources id = none) : Grounded sources id := by
  refine ⟨1, ?_⟩
  rw [ancestor?, h]
  rfl

theorem Grounded.derive (h : base? sources id = some base) (grounded : Grounded sources base) :
    Grounded sources id := by
  obtain ⟨n, hn⟩ := grounded
  exact ⟨n + 1, (ancestor?_succ h n).trans hn⟩

/-- What passes from bases to derived templates holds along every chain that ends. -/
theorem Grounded.induct {P : String → Prop}
    (step : ∀ id, (∀ base, base? sources id = some base → P base) → P id)
    (h : Grounded sources id) : P id := by
  obtain ⟨n, hn⟩ := h
  induction n generalizing id with
  | zero => cases hn
  | succ n ih =>
    refine step id fun base hbase => ih ?_
    rwa [ancestor?_succ hbase] at hn

/-! ### The meaning of a template -/

/-- A stage with the options that it inherits: those of the first stage of its kind in the base,
overridden by its own ones. -/
def Inherited (baseStages : List ConfiguredStage) (own c : ConfiguredStage) : Prop :=
  c.stage = own.stage ∧
    ((∀ b ∈ baseStages, b.stage ≠ own.stage) ∧ c.options = own.options ∨
      ∃ front b rest, baseStages = front ++ b :: rest ∧ (∀ a ∈ front, a.stage ≠ own.stage) ∧
        b.stage = own.stage ∧ c.options = Options.merge b.options own.options)

/-- The stages of a template with all options along its chain of bases. -/
inductive Resolves (sources : Dict TemplateSource) : String → List ConfiguredStage → Prop where
  | root {id : String} {t : TemplateSource} {own : List ConfiguredStage}
      (described : Dict.find? sources id = some t) (read : ownStages id t = .ok own)
      (last : t.base = none) : Resolves sources id own
  | derived {id base : String} {t : TemplateSource} {own baseStages stages : List ConfiguredStage}
      (described : Dict.find? sources id = some t) (read : ownStages id t = .ok own)
      (next : t.base = some base) (resolves : Resolves sources base baseStages)
      (inherited : List.Forall₂ (Inherited baseStages) own stages) : Resolves sources id stages

theorem inherited_inheritStage (baseStages : List ConfiguredStage) (own : ConfiguredStage) :
    Inherited baseStages own (inheritStage baseStages own) := by
  unfold inheritStage
  split
  · next b hfind =>
    obtain ⟨hb, front, rest, hsplit, hfront⟩ := List.find?_eq_some_iff_append.1 hfind
    refine ⟨rfl, .inr ⟨front, b, rest, hsplit, fun a ha => ?_, by simpa using hb, rfl⟩⟩
    simpa using hfront a ha
  · next hnone =>
    refine ⟨rfl, .inl ⟨fun b hb => ?_, rfl⟩⟩
    simpa using List.find?_eq_none.1 hnone b hb

theorem Inherited.eq {baseStages : List ConfiguredStage} {own c : ConfiguredStage}
    (h : Inherited baseStages own c) : c = inheritStage baseStages own := by
  obtain ⟨stage, options⟩ := c
  unfold inheritStage
  rcases h with ⟨rfl, ⟨hnone, rfl⟩ | ⟨front, b, rest, rfl, hfront, hb, rfl⟩⟩
  · have hfind : baseStages.find? (fun b => b.stage == own.stage) = none := by
      rw [List.find?_eq_none]
      intro b hb
      simpa using hnone b hb
    rw [hfind]
  · have hfind : (front ++ b :: rest).find? (fun b => b.stage == own.stage) = some b := by
      refine List.find?_eq_some_iff_append.2 ⟨by simpa using hb, front, rest, rfl, fun a ha => ?_⟩
      simpa using hfront a ha
    rw [hfind]

theorem forall₂_inherited_iff {baseStages own stages : List ConfiguredStage} :
    List.Forall₂ (Inherited baseStages) own stages ↔ stages = inherit baseStages own := by
  constructor
  · intro h
    induction h with
    | nil => rfl
    | cons hstage _ ih =>
      rw [hstage.eq, ih]
      rfl
  · rintro rfl
    rw [inherit, List.forall₂_map_right_iff, List.forall₂_same]
    exact fun own _ => inherited_inheritStage baseStages own

theorem Resolves.mem_keys {stages : List ConfiguredStage} (h : Resolves sources id stages) :
    id ∈ Dict.keys sources := by
  cases h with
  | root described => exact Dict.mem_keys_iff.2 ⟨_, described⟩
  | derived described => exact Dict.mem_keys_iff.2 ⟨_, described⟩

theorem Resolves.grounded {stages : List ConfiguredStage} (h : Resolves sources id stages) :
    Grounded sources id := by
  induction h with
  | root described _ last => exact .root ((base?_of_find? described).trans last)
  | derived described _ next _ _ ih => exact .derive ((base?_of_find? described).trans next) ih

theorem Resolves.unique {stages stages' : List ConfiguredStage} (h : Resolves sources id stages)
    (h' : Resolves sources id stages') : stages = stages' := by
  induction h generalizing stages' with
  | root described read last =>
    cases h' with
    | root described' read' =>
      cases described.symm.trans described'
      cases read.symm.trans read'
      rfl
    | derived described' _ next' =>
      cases described.symm.trans described'
      cases last.symm.trans next'
  | derived described read next _ inherited ih =>
    cases h' with
    | root described' _ last' =>
      cases described.symm.trans described'
      cases next.symm.trans last'
    | derived described' read' next' resolves' inherited' =>
      cases described.symm.trans described'
      cases read.symm.trans read'
      cases next.symm.trans next'
      rw [ih resolves'] at inherited
      rw [forall₂_inherited_iff.1 inherited, forall₂_inherited_iff.1 inherited']

/-! ### Other identifiers -/

def withBase (ρ : String → String) (t : TemplateSource) : TemplateSource :=
  { t with base := t.base.map ρ }

def renamed (ρ : String → String) (sources : Dict TemplateSource) : Dict TemplateSource :=
  Dict.ofList (sources.map fun p => (ρ p.1, withBase ρ p.2))

theorem readPlugin_ok_of_ok {owner owner' : String} {index : Nat} {required : Bool} {v : Json.Value}
    {read : Stage × Options} (h : readPlugin owner index required v = .ok read) :
    readPlugin owner' index required v = .ok read := by
  unfold readPlugin at h ⊢
  split at h
  · next members =>
    split at h
    · cases h
    · split at h
      · cases h
      · split at h
        · exact h
        · cases h
        · split at h
          · cases h
          · next hrequired =>
            rw [if_neg hrequired]
            exact h
  · cases h

theorem readOwnStages_ok_of_ok {owner owner' : String} {index : Nat} {plugins : List Json.Value}
    {stages : List ConfiguredStage} (h : readOwnStages owner index plugins = .ok stages) :
    readOwnStages owner' index plugins = .ok stages := by
  induction plugins generalizing index stages with
  | nil => exact h
  | cons v rest ih =>
    obtain ⟨⟨stage, options⟩, hread, hmore⟩ := exists_of_bind_ok h
    obtain ⟨more, hrest, hdone⟩ := exists_of_bind_ok hmore
    rw [readOwnStages, readPlugin_ok_of_ok hread]
    show (readOwnStages owner' (index + 1) rest >>= _) = _
    rw [ih hrest]
    exact hdone

/-- Own stages have nothing to do with identifiers. -/
theorem ownStages_ok_of_ok {id id' : String} {t t' : TemplateSource} (same : t'.plugins = t.plugins)
    {stages : List ConfiguredStage} (h : ownStages id t = .ok stages) :
    ownStages id' t' = .ok stages := by
  unfold ownStages at h ⊢
  rw [same]
  split at h
  · cases h
  · obtain ⟨read, hread, hdone⟩ := exists_of_bind_ok h
    rw [readOwnStages_ok_of_ok hread]
    split at hdone
    · cases hdone
    · next hplaced =>
      cases hdone
      dsimp only [bind, Except.bind]
      rw [hplaced]

theorem mem_keys_renamed {ρ : String → String} {other : String} :
    other ∈ Dict.keys (renamed ρ sources) ↔ ∃ id ∈ Dict.keys sources, ρ id = other := by
  rw [renamed, Dict.mem_keys_ofList, Dict.keys, List.map_map, ← List.mem_map, Dict.keys,
    List.map_map]
  rfl

section Renamed
variable {ρ : String → String} (inj : Function.Injective ρ) (ordered : Dict.Ordered sources)
include inj ordered

theorem find?_renamed (id : String) : Dict.find? (renamed ρ sources) (ρ id) =
    (Dict.find? sources id).map (withBase ρ) := by
  rw [renamed, Dict.find?_ofList]
  · exact Dict.find?_map_of_injective inj (withBase ρ) sources id
  · have hnames := ordered.nodup_keys.map inj
    rw [Dict.keys, List.map_map] at hnames ⊢
    exact hnames

theorem exists_of_mem_renamed {p : String × TemplateSource} (h : p ∈ renamed ρ sources) :
    ∃ id t, (id, t) ∈ sources ∧ p = (ρ id, withBase ρ t) := by
  obtain ⟨id, hid, hp⟩ := mem_keys_renamed.1 (List.mem_map_of_mem h)
  obtain ⟨t, hfind⟩ := Dict.mem_keys_iff.1 hid
  have hordered : Dict.Ordered (renamed ρ sources) := Dict.ordered_ofList _
  have hnew := find?_renamed inj ordered id
  rw [hp, Dict.find?_of_mem hordered.nodup_keys h, hfind] at hnew
  exact ⟨id, t, Dict.mem_of_find? hfind, Prod.ext hp.symm (Option.some.inj hnew)⟩

theorem base?_renamed (id : String) :
    base? (renamed ρ sources) (ρ id) = (base? sources id).map ρ := by
  rw [base?, find?_renamed inj ordered, base?]
  cases Dict.find? sources id with
  | none => rfl
  | some t => rfl

theorem Grounded.renamed (h : Grounded sources id) : Grounded (renamed ρ sources) (ρ id) := by
  refine h.induct (P := fun id => Grounded (Catalog.renamed ρ sources) (ρ id)) fun id hbase => ?_
  cases hnext : base? sources id with
  | none =>
    refine .root ?_
    rw [base?_renamed inj ordered, hnext]
    rfl
  | some base =>
    refine .derive ?_ (hbase base hnext)
    rw [base?_renamed inj ordered, hnext]
    rfl

theorem Resolves.renamed {stages : List ConfiguredStage} (h : Resolves sources id stages) :
    Resolves (renamed ρ sources) (ρ id) stages := by
  induction h with
  | @root id t own described read last =>
    have hfind := find?_renamed inj ordered id
    rw [described] at hfind
    refine .root hfind (ownStages_ok_of_ok rfl read) ?_
    rw [withBase, last]
    rfl
  | @derived id base t own baseStages stages described read next _ inherited ih =>
    have hfind := find?_renamed inj ordered id
    rw [described] at hfind
    refine .derived hfind (ownStages_ok_of_ok rfl read) ?_ ih inherited
    rw [withBase, next]
    rfl

end Renamed

/-! ### Templates that are settled -/

/-- Every template that is settled has its meaning, and its base is settled as well. -/
structure Settled (sources : Dict TemplateSource) (settled : Templates) : Prop where
  ordered : Dict.Ordered settled
  resolves : ∀ id stages, Dict.find? settled id = some stages → Resolves sources id stages
  based : ∀ id ∈ Dict.keys settled, ∀ base, base? sources id = some base →
    base ∈ Dict.keys settled

theorem Settled.nil (sources : Dict TemplateSource) : Settled sources [] where
  ordered := Dict.Ordered.nil
  resolves _ _ h := by cases h
  based _ h := by cases h

theorem Settled.mem_sources {settled : Templates} (h : Settled sources settled)
    (hid : id ∈ Dict.keys settled) : id ∈ Dict.keys sources := by
  obtain ⟨stages, hstages⟩ := Dict.mem_keys_iff.1 hid
  exact (h.resolves id stages hstages).mem_keys

theorem Settled.insert {settled : Templates} (h : Settled sources settled)
    {stages : List ConfiguredStage} (resolves : Resolves sources id stages)
    (based : ∀ base, base? sources id = some base → base ∈ Dict.keys settled) :
    Settled sources (Dict.insert settled id stages) where
  ordered := h.ordered.insert id stages
  resolves other stages' hfind := by
    rw [Dict.find?_insert] at hfind
    split at hfind
    · next heq =>
      cases hfind
      rwa [← heq]
    · exact h.resolves other stages' hfind
  based other hother base hbase := by
    rw [Dict.mem_keys_insert] at hother ⊢
    rcases hother with rfl | hold
    · exact .inr (based base hbase)
    · exact .inr (h.based other hold base hbase)

/-- All templates are settled that can be.  The rest is given in order. -/
structure Outcome (sources : Dict TemplateSource) (settled : Templates) (rest : List String) :
    Prop extends Settled sources settled where
  closed : ∀ id ∈ Dict.keys sources,
    (∀ base, base? sources id = some base → base ∈ Dict.keys settled) → id ∈ Dict.keys settled
  sorted : rest.Pairwise (· < ·)
  mem_rest_iff : ∀ id, id ∈ rest ↔ id ∈ Dict.keys sources ∧ id ∉ Dict.keys settled

def BasesKnown (sources : Dict TemplateSource) : Prop :=
  ∀ id base, base? sources id = some base → base ∈ Dict.keys sources

namespace Outcome

variable {settled settled' : Templates} {rest rest' : List String}

theorem mem_settled_iff (h : Outcome sources settled rest) (known : BasesKnown sources) :
    id ∈ Dict.keys settled ↔ id ∈ Dict.keys sources ∧ Grounded sources id := by
  constructor
  · intro hid
    obtain ⟨stages, hstages⟩ := Dict.mem_keys_iff.1 hid
    have hresolves := h.resolves id stages hstages
    exact ⟨hresolves.mem_keys, hresolves.grounded⟩
  · rintro ⟨hid, hgrounded⟩
    refine hgrounded.induct (P := fun id => id ∈ Dict.keys sources → id ∈ Dict.keys settled) ?_ hid
    intro id hbase hid
    exact h.closed id hid fun base hb => hbase base hb (known id base hb)

theorem find?_iff (h : Outcome sources settled rest) (known : BasesKnown sources)
    {stages : List ConfiguredStage} :
    Dict.find? settled id = some stages ↔ Resolves sources id stages := by
  constructor
  · exact h.resolves id stages
  · intro hresolves
    have hmem := (h.mem_settled_iff known).2 ⟨hresolves.mem_keys, hresolves.grounded⟩
    obtain ⟨stages', hstages'⟩ := Dict.mem_keys_iff.1 hmem
    rw [hstages', (h.resolves id stages' hstages').unique hresolves]

theorem mem_rest (h : Outcome sources settled rest) (known : BasesKnown sources) :
    id ∈ rest ↔ id ∈ Dict.keys sources ∧ ¬ Grounded sources id := by
  rw [h.mem_rest_iff, h.mem_settled_iff known, not_and, and_congr_right_iff]
  intro hid
  exact ⟨fun hnot => hnot hid, fun hnot _ => hnot⟩

theorem keys_eq (h : Outcome sources settled []) (ordered : Dict.Ordered sources) :
    Dict.keys settled = Dict.keys sources := by
  refine h.ordered.pairwise_keys.eq_of_mem_iff ordered.pairwise_keys fun id => ?_
  constructor
  · exact h.mem_sources
  · intro hid
    by_contra hnot
    exact List.not_mem_nil ((h.mem_rest_iff id).2 ⟨hid, hnot⟩)

theorem length_eq_iff (h : Outcome sources settled rest) (ordered : Dict.Ordered sources) :
    settled.length = sources.length ↔ rest = [] := by
  constructor
  · intro hlength
    have hsub : (Dict.keys settled).Subperm (Dict.keys sources) :=
      List.subperm_of_subset h.ordered.nodup_keys fun id hid => h.mem_sources hid
    have hperm := hsub.perm_of_length_le (by simp [Dict.keys, hlength])
    rw [List.eq_nil_iff_forall_not_mem]
    intro id hid
    obtain ⟨hsource, hopen⟩ := (h.mem_rest_iff id).1 hid
    exact hopen (hperm.mem_iff.2 hsource)
  · rintro rfl
    have hkeys := congrArg List.length (h.keys_eq ordered)
    simpa [Dict.keys] using hkeys

theorem unique (h : Outcome sources settled rest) (h' : Outcome sources settled' rest')
    (known : BasesKnown sources) : settled = settled' ∧ rest = rest' := by
  constructor
  · refine h.ordered.eq_of_find? h'.ordered fun id => Option.ext fun stages => ?_
    rw [h.find?_iff known, h'.find?_iff known]
  · refine h.sorted.eq_of_mem_iff h'.sorted fun id => ?_
    rw [h.mem_rest known, h'.mem_rest known]

end Outcome

/-! ### Rounds -/

structure Described (sources : Dict TemplateSource) (t : OpenTemplate) : Prop where
  base : base? sources t.id = t.base
  read : ∃ source, Dict.find? sources t.id = some source ∧ ownStages t.id source = .ok t.stages

theorem Described.base_settled {t : OpenTemplate} (h : Described sources t) {settled : Templates}
    {stages : List ConfiguredStage} (hsettle : settle? settled t = some stages) :
    ∀ base, base? sources t.id = some base → base ∈ Dict.keys settled := by
  intro base hbase
  rw [h.base] at hbase
  rw [settle?, hbase] at hsettle
  obtain ⟨baseStages, hfind, _⟩ := Option.map_eq_some_iff.1 hsettle
  exact Dict.mem_keys_iff.2 ⟨baseStages, hfind⟩

theorem Described.resolves {t : OpenTemplate} (h : Described sources t) {settled : Templates}
    (hsettled : Settled sources settled) {stages : List ConfiguredStage}
    (hsettle : settle? settled t = some stages) : Resolves sources t.id stages := by
  obtain ⟨source, hsource, hread⟩ := h.read
  have hbase := (base?_of_find? hsource).symm.trans h.base
  unfold settle? at hsettle
  split at hsettle
  · next hnone =>
    cases hsettle
    exact .root hsource hread (hbase.trans hnone)
  · next base hsome =>
    obtain ⟨baseStages, hfind, rfl⟩ := Option.map_eq_some_iff.1 hsettle
    exact .derived hsource hread (hbase.trans hsome) (hsettled.resolves base baseStages hfind)
      (forall₂_inherited_iff.2 rfl)

/-- Each template is settled or waits, and those that wait are in order. -/
structure Progress (sources : Dict TemplateSource) (settled : Templates)
    (waiting : List OpenTemplate) : Prop extends Settled sources settled where
  described : ∀ t ∈ waiting, Described sources t
  increasing : (waiting.map (·.id)).Pairwise (· < ·)
  waits_iff : ∀ id, id ∈ waiting.map (·.id) ↔ id ∈ Dict.keys sources ∧ id ∉ Dict.keys settled

variable {settled : Templates} {waiting : List OpenTemplate}

theorem Described.isSome_settle? {t : OpenTemplate} (h : Described sources t)
    (based : ∀ base, base? sources t.id = some base → base ∈ Dict.keys settled) :
    (settle? settled t).isSome = true := by
  unfold settle?
  split
  · rfl
  · next base hbase =>
    rw [Option.isSome_map, Option.isSome_iff_exists]
    exact Dict.mem_keys_iff.1 (based base (h.base.trans hbase))

theorem mem_keys_settleRound (settled : Templates) (ts : List OpenTemplate) (id : String) :
    id ∈ Dict.keys (settleRound settled ts) ↔ id ∈ Dict.keys settled ∨ id ∈ ts.map (·.id) :=
  Dict.mem_keys_foldl_insert _ _ ts

theorem Settled.settleRound (h : Settled sources settled) {ts : List OpenTemplate}
    (described : ∀ t ∈ ts, Described sources t)
    (ready : ∀ t ∈ ts, (settle? settled t).isSome = true) :
    Settled sources (settleRound settled ts) := by
  have hfold : Settled sources (Catalog.settleRound settled ts) ∧
      ∀ id ∈ Dict.keys settled, id ∈ Dict.keys (Catalog.settleRound settled ts) := by
    refine List.foldlRecOn ts _ (motive := fun acc => Settled sources acc ∧
      ∀ id ∈ Dict.keys settled, id ∈ Dict.keys acc) ⟨h, fun id hid => hid⟩ ?_
    -- A round looks bases up in what was settled before it, not in what it has settled itself.
    rintro acc ⟨hacc, hgrown⟩ t ht
    obtain ⟨stages, hstages⟩ := Option.isSome_iff_exists.1 (ready t ht)
    rw [hstages, Option.getD_some]
    constructor
    · refine hacc.insert ((described t ht).resolves h hstages) fun base hbase => ?_
      exact hgrown base ((described t ht).base_settled hstages base hbase)
    · intro id hid
      exact Dict.mem_keys_insert.2 (.inr (hgrown id hid))
  exact hfold.1

/-- One round: what is ready is settled, and the rest waits on. -/
theorem Progress.round (h : Progress sources settled waiting) :
    Progress sources (Catalog.settleRound settled (ready settled waiting))
      (unready settled waiting) where
  toSettled := by
    refine h.toSettled.settleRound (fun t ht => ?_) fun t ht => ?_
    · exact h.described t (List.mem_filter.1 ht).1
    · exact (List.mem_filter.1 ht).2
  described t ht := h.described t (List.mem_filter.1 ht).1
  increasing := h.increasing.sublist (List.filter_sublist.map _)
  waits_iff id := by
    have hdistinct : ∀ t ∈ waiting, ∀ t' ∈ waiting, t.id = t'.id → t = t' := by
      intro t ht t' ht' heq
      exact List.inj_on_of_nodup_map h.increasing.nodup ht ht' heq
    rw [mem_keys_settleRound, not_or, ← and_assoc, ← h.waits_iff]
    constructor
    · intro hid
      obtain ⟨t, ht, rfl⟩ := List.mem_map.1 hid
      obtain ⟨hmem, hunready⟩ := List.mem_filter.1 ht
      refine ⟨List.mem_map_of_mem hmem, fun hready => ?_⟩
      obtain ⟨t', ht', heq⟩ := List.mem_map.1 hready
      obtain ⟨hmem', hready'⟩ := List.mem_filter.1 ht'
      rw [hdistinct t' hmem' t hmem heq] at hready'
      simp [hready'] at hunready
    · rintro ⟨hid, hnot⟩
      obtain ⟨t, ht, rfl⟩ := List.mem_map.1 hid
      refine List.mem_map_of_mem (List.mem_filter.2 ⟨ht, ?_⟩)
      rw [Bool.not_eq_true', ← Bool.not_eq_true]
      intro hready
      exact hnot (List.mem_map_of_mem (List.mem_filter.2 ⟨ht, hready⟩))

theorem Progress.outcome (h : Progress sources settled waiting) (hready : ready settled waiting = []) :
    Outcome sources settled (waiting.map (·.id)) where
  toSettled := h.toSettled
  closed id hid hbase := by
    by_contra hnot
    obtain ⟨t, ht, rfl⟩ := List.mem_map.1 ((h.waits_iff id).2 ⟨hid, hnot⟩)
    have hmem : t ∈ ready settled waiting :=
      List.mem_filter.2 ⟨ht, (h.described t ht).isSome_settle? hbase⟩
    rw [hready] at hmem
    exact List.not_mem_nil hmem
  sorted := h.increasing
  mem_rest_iff := h.waits_iff

theorem outcome_of_rounds (h : Progress sources settled waiting) :
    Outcome sources (settleAll settled waiting).1 ((settleAll settled waiting).2.map (·.id)) := by
  induction settled, waiting using settleAll.induct with
  | case1 settled waiting hready =>
    rw [settleAll, dif_pos hready]
    exact h.outcome hready
  | case2 settled waiting hready ih =>
    rw [settleAll, dif_neg hready]
    exact ih h.round

/-! ### From the sources to the templates -/

/-- The templates as they are read, before anything is inherited. -/
def opened (sources : Dict TemplateSource) : Except Error (List OpenTemplate) :=
  sources.mapM fun p => do .ok ⟨p.1, p.2.base, ← ownStages p.1 p.2⟩

theorem exists_opened (valid : ∀ p ∈ sources, ∃ stages, ownStages p.1 p.2 = .ok stages) :
    ∃ waiting, opened sources = .ok waiting := by
  refine exists_mapM_ok fun p hp => ?_
  obtain ⟨stages, hstages⟩ := valid p hp
  rw [hstages]
  exact ⟨_, rfl⟩

theorem forall₂_of_opened (h : opened sources = .ok waiting) :
    List.Forall₂ (fun p t => t.id = p.1 ∧ t.base = p.2.base ∧ ownStages p.1 p.2 = .ok t.stages)
      sources waiting := by
  refine (forall₂_of_mapM h).imp fun p t ht => ?_
  obtain ⟨stages, hstages, heq⟩ := exists_of_bind_ok ht
  cases heq
  exact ⟨rfl, rfl, hstages⟩

theorem map_id_of_opened (h : opened sources = .ok waiting) :
    waiting.map (·.id) = Dict.keys sources := by
  have hids := (forall₂_of_opened h).imp fun p t ht => ht.1.symm
  rw [← List.forall₂_map_right_iff, ← List.forall₂_map_left_iff, List.forall₂_eq_eq_eq] at hids
  exact hids.symm

theorem progress_of_opened (ordered : Dict.Ordered sources) (h : opened sources = .ok waiting) :
    Progress sources [] waiting where
  toSettled := .nil sources
  described t ht := by
    obtain ⟨⟨id, source⟩, hp, hid, hbase, hread⟩ :=
      exists_of_forall₂ (forall₂_of_opened h).flip t ht
    obtain rfl : t.id = id := hid
    have hfind := Dict.find?_of_mem ordered.nodup_keys hp
    exact ⟨(base?_of_find? hfind).trans hbase.symm, source, hfind, hread⟩
  increasing := by
    rw [map_id_of_opened h]
    exact ordered.pairwise_keys
  waits_iff id := by
    rw [map_id_of_opened h]
    simp [Dict.keys]

theorem checkBases_iff {pairs : List (String × TemplateSource)} :
    checkBases sources pairs = .ok () ↔
      ∀ p ∈ pairs, ∀ base, p.2.base = some base → base ∈ Dict.keys sources := by
  induction pairs with
  | nil => simp [checkBases]
  | cons p rest ih =>
    obtain ⟨id, t⟩ := p
    rw [checkBases, List.forall_mem_cons]
    split
    · next base hbase =>
      by_cases hknown : base ∈ Dict.keys sources
      · rw [if_pos (Dict.contains_iff.2 hknown), ih]
        simp [hbase, hknown]
      · rw [if_neg fun hcontains => hknown (Dict.contains_iff.1 hcontains)]
        simp [hbase, hknown]
    · next hnone =>
      rw [ih]
      simp [hnone]

theorem basesKnown_of_checkBases (h : checkBases sources sources = .ok ()) :
    BasesKnown sources := by
  intro id base hbase
  obtain ⟨t, hfind, hbase⟩ := Option.bind_eq_some_iff.1 hbase
  exact checkBases_iff.1 h _ (Dict.mem_of_find? hfind) base hbase

/-- How settling ends, if every template can be read and every base is known. -/
def concluded (settled : Templates) (rest : List String) : Except Error Templates :=
  if rest = [] then .ok settled else .error (.templateCycle rest)

theorem settleTemplates_eq (hopened : opened sources = .ok waiting)
    (hbases : checkBases sources sources = .ok ()) : settleTemplates sources =
      concluded (settleAll [] waiting).1 ((settleAll [] waiting).2.map (·.id)) := by
  show (opened sources >>= fun waiting => checkBases sources sources >>= fun _ => _) = _
  rw [hopened, hbases]
  dsimp only [bind, Except.bind]
  rcases hall : settleAll [] waiting with ⟨settled, _ | ⟨t, rest⟩⟩
  · rfl
  · rfl

end Catalog
end TaskGen
