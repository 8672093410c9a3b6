import TaskGen.Json.Decode
import TaskGen.Proofs.Catalog.Reading
import TaskGen.Proofs.Dict

/-!
Records that keep the members they do not know.  What is read from such an object is its fields
and its other members, and together they are the object again.

`Tells` says of a decoder that it loses nothing: the value of the document is what the decoded
item is encoded as, apart from fields that are not given.  Lists, maps and records of such decoders
lose nothing either.

Main statements: `parts_of_openRecord?`, `Parts.extend_eq` and `openRecord?_ofValue`.
-/

namespace TaskGen
namespace Json

open Document

def Value.mapItems (f : Value → Value) : Value → Value
  | .array items => .array (items.map f)
  | v => v

theorem ordered_of_mem_items {items : List Value} (h : OrderedItems items) :
    ∀ v ∈ items, v.Ordered := by
  induction items with
  | nil => simp
  | cons v items ih => exact List.forall_mem_cons.2 ⟨h.1, ih h.2⟩

namespace Document

/-! ### Members with names -/

def named (pairs : Dict Document) : List (Option String × Document) :=
  pairs.map fun p => (some p.1, p.2)

theorem named_cons (p : String × Document) (pairs : Dict Document) :
    named (p :: pairs) = (some p.1, p.2) :: named pairs := rfl

theorem memberValues?_named {pairs : Dict Document} {ms : Dict Value} :
    memberValues? (named pairs) = some ms ↔
      Dict.mapValues value? pairs = Dict.mapValues some ms := by
  induction pairs generalizing ms with
  | nil =>
    cases ms with
    | nil => exact iff_of_true rfl rfl
    | cons q ms => exact iff_of_false (by simp [named, memberValues?]) (by simp [Dict.mapValues])
  | cons p pairs ih =>
    rw [named_cons, memberValues?]
    simp only [Option.bind_eq_bind, Option.bind_some, Option.bind_eq_some_iff]
    constructor
    · rintro ⟨v, hv, vs, hvs, heq⟩
      cases heq
      rw [ih] at hvs
      simp only [Dict.mapValues, List.map_cons] at hvs ⊢
      rw [hv, hvs]
    · intro h
      cases ms with
      | nil => cases h
      | cons q ms =>
        simp only [Dict.mapValues, List.map_cons, List.cons.injEq, Prod.mk.injEq] at h
        obtain ⟨⟨hname, hv⟩, hrest⟩ := h
        refine ⟨q.2, hv, ms, ih.2 hrest, ?_⟩
        rw [hname]

theorem filter_named (keep : String → Bool) (pairs : Dict Document) :
    ((named pairs).filter fun m => !(m.1.any keep)) =
      named (Dict.restrict (fun name => !keep name) pairs) := by
  induction pairs with
  | nil => rfl
  | cons p pairs ih =>
    rw [named_cons]
    by_cases hp : keep p.1
    · rw [Dict.restrict_cons_of_neg (by simp [hp]), ← ih]
      simp [hp]
    · rw [Dict.restrict_cons_of_pos (by simp [hp]), named_cons, ← ih]
      simp [hp]

/-! ### Fields -/

/-- All members have names, and those that are fields come once each. -/
theorem of_collectFields {fields : List String} {members : List (Option String × Document)}
    {known found : Dict Document} (h : collectFields fields members known = some found) :
    ∃ pairs, members = named pairs ∧
      found = Dict.extend known (Dict.restrict fields.contains pairs) ∧
      (Dict.keys (Dict.restrict fields.contains pairs)).Nodup ∧
      ∀ p ∈ pairs, fields.contains p.1 = true → Dict.find? known p.1 = none := by
  induction members generalizing known with
  | nil =>
    cases h
    exact ⟨[], rfl, rfl, List.nodup_nil, by simp⟩
  | cons m members ih =>
    obtain ⟨k, d⟩ := m
    cases k with
    | none => cases h
    | some k =>
      rw [collectFields] at h
      by_cases hk : fields.contains k = true
      · rw [if_pos hk] at h
        by_cases hold : Dict.contains known k = true
        · rw [if_pos hold] at h
          cases h
        · rw [if_neg hold] at h
          obtain ⟨pairs, rfl, rfl, hnodup, hfresh⟩ := ih h
          have hnew : Dict.find? known k = none := by
            simpa [Dict.contains] using hold
          have hothers : ∀ p ∈ pairs, fields.contains p.1 = true →
              k ≠ p.1 ∧ Dict.find? known p.1 = none := by
            intro p hp hfield
            have hnone := hfresh p hp hfield
            rw [Dict.find?_insert] at hnone
            by_cases hkp : k = p.1
            · rw [if_pos hkp] at hnone
              cases hnone
            · rw [if_neg hkp] at hnone
              exact ⟨hkp, hnone⟩
          refine ⟨(k, d) :: pairs, rfl, ?_, ?_, ?_⟩
          · rw [Dict.restrict_cons_of_pos hk, Dict.extend_cons]
          · rw [Dict.restrict_cons_of_pos hk, Dict.keys, List.map_cons, List.nodup_cons]
            refine ⟨fun hmem => ?_, hnodup⟩
            obtain ⟨p, hp, hpk⟩ := List.mem_map.1 hmem
            obtain ⟨hpairs, hfield⟩ := List.mem_filter.1 hp
            exact (hothers p hpairs hfield).1 hpk.symm
          · intro p hp hfield
            rcases List.mem_cons.1 hp with rfl | hrest
            · exact hnew
            · exact (hothers p hrest hfield).2
      · rw [if_neg hk] at h
        obtain ⟨pairs, rfl, rfl, hnodup, hfresh⟩ := ih h
        refine ⟨(k, d) :: pairs, rfl, ?_, ?_, ?_⟩
        · rw [Dict.restrict_cons_of_neg hk]
        · rw [Dict.restrict_cons_of_neg hk]
          exact hnodup
        · intro p hp hfield
          rcases List.mem_cons.1 hp with rfl | hrest
          · exact absurd hfield hk
          · exact hfresh p hrest hfield

theorem collectFields_named {fields : List String} {pairs known : Dict Document}
    (nodup : (Dict.keys pairs).Nodup) (fresh : ∀ p ∈ pairs, Dict.find? known p.1 = none) :
    collectFields fields (named pairs) known =
      some (Dict.extend known (Dict.restrict fields.contains pairs)) := by
  induction pairs generalizing known with
  | nil => rfl
  | cons p pairs ih =>
    rw [Dict.keys, List.map_cons, List.nodup_cons] at nodup
    have hknown : ¬ Dict.contains known p.1 = true := by
      simp [Dict.contains, fresh p List.mem_cons_self]
    rw [named_cons, collectFields]
    by_cases hp : fields.contains p.1 = true
    · rw [if_pos hp, if_neg hknown, Dict.restrict_cons_of_pos hp, Dict.extend_cons]
      refine ih nodup.2 fun q hq => ?_
      have hne : p.1 ≠ q.1 := fun heq => nodup.1 (heq ▸ List.mem_map_of_mem hq)
      rw [Dict.find?_insert_of_ne _ _ hne]
      exact fresh q (List.mem_cons_of_mem p hq)
    · rw [if_neg hp, Dict.restrict_cons_of_neg hp]
      exact ih nodup.2 fun q hq => fresh q (List.mem_cons_of_mem p hq)

theorem exists_values {d : Dict Document} (h : ∀ p ∈ d, ∃ v, p.2.value? = some v) :
    ∃ ms, Dict.mapValues value? d = Dict.mapValues some ms := by
  induction d with
  | nil => exact ⟨[], rfl⟩
  | cons p d ih =>
    obtain ⟨v, hv⟩ := h p List.mem_cons_self
    obtain ⟨ms, hms⟩ := ih fun q hq => h q (List.mem_cons_of_mem p hq)
    refine ⟨(p.1, v) :: ms, ?_⟩
    simp only [Dict.mapValues, List.map_cons] at hms ⊢
    rw [hv, hms]

theorem find?_values {d : Dict Document} {ms : Dict Value}
    (h : Dict.mapValues value? d = Dict.mapValues some ms) (name : String) :
    Dict.find? (Dict.ofList ms) name = (Dict.find? (Dict.ofList d) name).bind value? := by
  have hlists := congrArg Dict.ofList h
  rw [Dict.ofList_mapValues, Dict.ofList_mapValues] at hlists
  have hfind := congrArg (fun e => Dict.find? e name) hlists
  simp only [Dict.find?_mapValues] at hfind
  cases hd : Dict.find? (Dict.ofList d) name with
  | none =>
    rw [hd] at hfind
    simpa using hfind.symm
  | some e =>
    rw [hd, Option.map_some, eq_comm, Option.map_eq_some_iff] at hfind
    obtain ⟨v, hv, hvalue⟩ := hfind
    rw [hv, hvalue]
    rfl

/-- How the members of an object fall into fields and others. -/
structure Parts (fields : List String) (known : Dict Document) (others members : Dict Value) :
    Prop where
  ordered : Dict.Ordered members
  others_ordered : Dict.Ordered others
  /-- A field has the value that its document says. -/
  field : ∀ name ∈ fields, Dict.find? members name = (Dict.find? known name).bind value?
  other : ∀ name ∉ fields, Dict.find? members name = Dict.find? others name
  apart : ∀ name ∈ fields, Dict.find? others name = none

/-- Every member is a field or one of the others. -/
theorem exists_value_of_mem {fields : List String} {pairs : Dict Document} {rest : Dict Value}
    (nodup : (Dict.keys (Dict.restrict fields.contains pairs)).Nodup)
    (readable : ∀ name ∈ fields, ∀ e,
      Dict.find? (Dict.ofList (Dict.restrict fields.contains pairs)) name = some e →
        ∃ v, e.value? = some v)
    (values : Dict.mapValues value? (Dict.restrict (fun name => !fields.contains name) pairs) =
      Dict.mapValues some rest) : ∀ p ∈ pairs, ∃ v, p.2.value? = some v := by
  intro p hp
  by_cases hfield : fields.contains p.1 = true
  · have hmem : p ∈ Dict.restrict fields.contains pairs := List.mem_filter.2 ⟨hp, hfield⟩
    refine readable p.1 (List.contains_iff_mem.1 hfield) p.2 ?_
    rw [Dict.find?_ofList nodup]
    exact Dict.find?_of_mem nodup hmem
  · have hmem : p ∈ Dict.restrict (fun name => !fields.contains name) pairs :=
      List.mem_filter.2 ⟨hp, by simpa using hfield⟩
    have hpair : (p.1, p.2.value?) ∈ Dict.mapValues some rest := by
      rw [← values]
      exact List.mem_map_of_mem hmem
    obtain ⟨q, _, hq⟩ := List.mem_map.1 hpair
    exact ⟨q.2, (Prod.mk.inj hq).2.symm⟩

theorem parts_of_values {fields : List String} {pairs : Dict Document} {ms rest : Dict Value}
    (members : Dict.mapValues value? pairs = Dict.mapValues some ms)
    (others : Dict.mapValues value? (Dict.restrict (fun name => !fields.contains name) pairs) =
      Dict.mapValues some rest) :
    Parts fields (Dict.ofList (Dict.restrict fields.contains pairs)) (Dict.ofList rest)
      (Dict.ofList ms) where
  ordered := Dict.ordered_ofList ms
  others_ordered := Dict.ordered_ofList rest
  field name hname := by
    rw [find?_values members, Dict.find?_ofList_restrict, if_pos (by simpa using hname)]
  other name hname := by
    rw [find?_values members, find?_values others, Dict.find?_ofList_restrict,
      if_pos (by simpa using hname)]
  apart name hname := by
    rw [find?_values others, Dict.find?_ofList_restrict, if_neg (by simpa using hname)]
    rfl

/-- A record that keeps what it does not know has a value, if its fields have. -/
theorem parts_of_openRecord? {fields : List String} {d : Document} {known : Dict Document}
    {others : Dict Value} (h : openRecord? fields d = some (known, others))
    (readable : ∀ name ∈ fields, ∀ e, Dict.find? known name = some e → ∃ v, e.value? = some v) :
    ∃ members, d.value? = some (.object members) ∧ Parts fields known others members := by
  cases d with
  | object level members =>
    rw [openRecord?] at h
    by_cases hlevel : level ≤ deepest
    · simp only [if_pos hlevel, Option.bind_eq_bind, Option.bind_eq_some_iff] at h
      obtain ⟨found, hfound, rest, hrest, heq⟩ := h
      cases heq
      obtain ⟨pairs, rfl, rfl, hnodup, -⟩ := of_collectFields hfound
      rw [filter_named fields.contains, memberValues?_named] at hrest
      obtain ⟨ms, hms⟩ := exists_values (exists_value_of_mem hnodup readable hrest)
      refine ⟨Dict.ofList ms, ?_, parts_of_values hms hrest⟩
      rw [value?, if_pos hlevel, memberValues?_named.2 hms]
      rfl
    · rw [if_neg hlevel] at h
      cases h
  | _ => cases h

/-- An object is put together again from what its fields say and the other members. -/
theorem Parts.extend_eq {fields : List String} {known : Dict Document}
    {others members changed defaults given : Dict Value} (parts : Parts fields known others members)
    (hchanged : Dict.Ordered changed) (hdefaults : Dict.Ordered defaults)
    (hgiven : (Dict.keys given).Nodup)
    (field : ∀ name ∈ fields,
      (Dict.find? changed name).or (Dict.find? defaults name) = Dict.find? given name)
    (other : ∀ name ∉ fields, Dict.find? changed name = Dict.find? members name ∧
      Dict.find? defaults name = none ∧ Dict.find? given name = none) :
    Dict.extend defaults changed = Dict.extend others given := by
  apply (hdefaults.extend _).eq_of_find? (parts.others_ordered.extend _)
  intro name
  rw [Dict.find?_extend hchanged.nodup_keys, Dict.find?_extend hgiven]
  by_cases hname : name ∈ fields
  · rw [field name hname, parts.apart name hname, Option.or_none]
  · obtain ⟨hsame, hdefault, hnew⟩ := other name hname
    rw [hsame, hdefault, hnew, parts.other name hname, Option.or_none, Option.none_or]

/-! ### What decoders tell -/

/-- What is read is what the value of the document says, once that is complete. -/
def Tells {α : Type} (complete : Value → Value) (encode : α → Value)
    (item? : Document → Option α) : Prop :=
  ∀ d a, item? d = some a → ∃ v, d.value? = some v ∧ complete v = encode a

theorem tells_string : Tells (fun v => v) .string string? := by
  intro d s h
  cases d with
  | string text =>
    rw [string?] at h
    exact ⟨.string s, by rw [value?, h]; rfl, rfl⟩
  | _ => cases h

section
variable {α : Type} {complete : Value → Value} {encode : α → Value}
  {item? : Document → Option α}

theorem exists_itemValues (tells : Tells complete encode item?) {items : List Document}
    {as : List α} (h : items.mapM item? = some as) :
    ∃ vs, itemValues? items = some vs ∧ vs.map complete = as.map encode := by
  induction items generalizing as with
  | nil =>
    cases h
    exact ⟨[], rfl, rfl⟩
  | cons d items ih =>
    rw [List.mapM_cons] at h
    simp only [Option.bind_eq_bind, Option.bind_eq_some_iff] at h
    obtain ⟨a, ha, as', has, heq⟩ := h
    cases heq
    obtain ⟨v, hv, hcomplete⟩ := tells d a ha
    obtain ⟨vs, hvs, hrest⟩ := ih has
    refine ⟨v :: vs, ?_, ?_⟩
    · simp [itemValues?, hv, hvs]
    · rw [List.map_cons, List.map_cons, hcomplete, hrest]

theorem tells_list (tells : Tells complete encode item?) :
    Tells (Value.mapItems complete) (fun as => .array (as.map encode)) (list? item?) := by
  intro d as h
  cases d with
  | array level items =>
    rw [list?] at h
    by_cases hlevel : level ≤ deepest
    · rw [if_pos hlevel] at h
      obtain ⟨vs, hvs, hcomplete⟩ := exists_itemValues tells h
      refine ⟨.array vs, ?_, congrArg _ hcomplete⟩
      rw [value?, if_pos hlevel, hvs]
      rfl
    · rw [if_neg hlevel] at h
      cases h
  | _ => cases h

theorem named_of_mapM {members : List (Option String × Document)} {pairs : List (String × α)}
    (h : members.mapM (fun m => do some (← m.1, ← item? m.2)) = some pairs) :
    ∃ ds, members = named ds ∧ Dict.mapValues item? ds = Dict.mapValues some pairs := by
  induction members generalizing pairs with
  | nil =>
    cases h
    exact ⟨[], rfl, rfl⟩
  | cons m members ih =>
    rw [List.mapM_cons] at h
    simp only [Option.bind_eq_bind, Option.bind_eq_some_iff] at h
    obtain ⟨p, ⟨k, hk, a, ha, hp⟩, pairs', hpairs, heq⟩ := h
    cases hp
    cases heq
    obtain ⟨ds, rfl, hds⟩ := ih hpairs
    refine ⟨(k, m.2) :: ds, ?_, ?_⟩
    · rw [named_cons, ← hk]
    · simp only [Dict.mapValues, List.map_cons] at hds ⊢
      rw [ha, hds]

theorem values_of_tells (tells : Tells (fun v => v) encode item?) {ds : Dict Document} {as : Dict α}
    (h : Dict.mapValues item? ds = Dict.mapValues some as) :
    Dict.mapValues value? ds = Dict.mapValues some (Dict.mapValues encode as) := by
  induction ds generalizing as with
  | nil =>
    cases as with
    | nil => rfl
    | cons q as => cases h
  | cons p ds ih =>
    cases as with
    | nil => cases h
    | cons q as =>
      simp only [Dict.mapValues, List.map_cons, List.cons.injEq, Prod.mk.injEq] at h ih ⊢
      obtain ⟨⟨hname, hitem⟩, hrest⟩ := h
      obtain ⟨v, hv, hencode⟩ := tells p.2 q.2 hitem
      exact ⟨⟨hname, hv.trans (congrArg some hencode)⟩, ih hrest⟩

theorem tells_dict (tells : Tells (fun v => v) encode item?) :
    Tells (fun v => v) (fun as => .object (Dict.mapValues encode as)) (dict? item?) := by
  intro d as h
  cases d with
  | object level members =>
    rw [dict?] at h
    by_cases hlevel : level ≤ deepest
    · simp only [if_pos hlevel, Option.bind_eq_bind, Option.bind_eq_some_iff] at h
      obtain ⟨pairs, hpairs, heq⟩ := h
      cases heq
      obtain ⟨ds, rfl, hds⟩ := named_of_mapM hpairs
      refine ⟨.object (Dict.mapValues encode (Dict.ofList pairs)), ?_, rfl⟩
      rw [value?, if_pos hlevel, memberValues?_named.2 (values_of_tells tells hds),
        ← Dict.ofList_mapValues]
      rfl
    · rw [if_neg hlevel] at h
      cases h
  | _ => cases h

/-- What is known of a field tells a value.  `absent` stands for a field that is not given. -/
structure Told (known : Dict Document) (name : String) (complete : Value → Value)
    (absent : Option Value) (v : Value) : Prop where
  readable : ∀ d, Dict.find? known name = some d → ∃ w, d.value? = some w
  value : (((Dict.find? known name).bind value?).map complete).or absent = some v

theorem Parts.told {fields : List String} {known : Dict Document} {others members : Dict Value}
    (parts : Parts fields known others members) {name : String} (mem : name ∈ fields)
    {absent : Option Value} {v : Value} (h : Told known name complete absent v) :
    ((Dict.find? members name).map complete).or absent = some v := by
  rw [parts.field name mem]
  exact h.value

theorem told_of_required? (tells : Tells complete encode item?) {known : Dict Document}
    {name : String} {a : α} (h : required? known name item? = some a) :
    Told known name complete none (encode a) := by
  obtain ⟨d, hfind, ha⟩ := Option.bind_eq_some_iff.1 h
  obtain ⟨v, hv, hcomplete⟩ := tells d a ha
  constructor
  · intro e he
    rw [hfind] at he
    cases he
    exact ⟨v, hv⟩
  · rw [hfind, Option.bind_some, hv, Option.map_some, hcomplete]
    rfl

theorem told_of_optional? (tells : Tells complete encode item?) {known : Dict Document}
    {name : String} {default a : α} (h : optional? known name default item? = some a) :
    Told known name complete (some (encode default)) (encode a) := by
  rw [optional?] at h
  split at h
  · next hfind =>
    cases h
    constructor
    · intro e he
      rw [hfind] at he
      cases he
    · rw [hfind]
      rfl
  · next d hfind =>
    obtain ⟨v, hv, hcomplete⟩ := tells d a h
    constructor
    · intro e he
      rw [hfind] at he
      cases he
      exact ⟨v, hv⟩
    · rw [hfind, Option.bind_some, hv, Option.map_some, hcomplete]
      rfl

theorem exists_of_mem_list? {d : Document} {as : List α} (h : list? item? d = some as) :
    ∀ a ∈ as, ∃ e, item? e = some a := by
  unfold list? at h
  split at h
  · split at h
    · exact exists_of_mem_mapM h
    · cases h
  · cases h

theorem ordered_of_dict? {d : Document} {as : Dict α} (h : dict? item? d = some as) :
    Dict.Ordered as := by
  unfold dict? at h
  split at h
  · split at h
    · obtain ⟨pairs, -, heq⟩ := Option.bind_eq_some_iff.1 h
      cases heq
      exact Dict.ordered_ofList pairs
    · cases h
  · cases h

/-- A field that may be missing has been read, or it has the value for that case. -/
theorem of_optional? {known : Dict Document} {name : String} {default a : α}
    (h : optional? known name default item? = some a) : a = default ∨ ∃ d, item? d = some a := by
  unfold optional? at h
  split at h
  · exact .inl (Option.some.inj h).symm
  · exact .inr ⟨_, h⟩

end

theorem mapItems_self (v : Value) : Value.mapItems (fun w => w) v = v := by
  cases v <;> simp [Value.mapItems]

theorem tells_strings : Tells (fun v => v) Value.strings (list? string?) := by
  intro d as h
  obtain ⟨v, hv, hcomplete⟩ := tells_list tells_string d as h
  rw [mapItems_self] at hcomplete
  exact ⟨v, hv, hcomplete⟩

structure Remaining (fields : List String) (others : Dict Value) : Prop where
  ordered : (Value.object others).Ordered
  apart : ∀ name ∈ fields, Dict.find? others name = none

theorem Parts.remaining {fields : List String} {known : Dict Document}
    {others members : Dict Value} (parts : Parts fields known others members)
    (ordered : (Value.object members).Ordered) : Remaining fields others := by
  refine ⟨⟨parts.others_ordered, orderedMembers_iff.2 ?_⟩, parts.apart⟩
  rintro ⟨name, v⟩ hmem
  have hfind := Dict.find?_of_mem parts.others_ordered.nodup_keys hmem
  have hother : name ∉ fields := by
    intro hname
    rw [parts.apart name hname] at hfind
    cases hfind
  rw [← parts.other name hother] at hfind
  exact ordered.of_mem (Dict.mem_of_find? hfind)

/-! ### Reading back -/

theorem ofItems_eq (vs : List Value) : ofItems vs = vs.map ofValue := by
  induction vs with
  | nil => rfl
  | cons v vs ih => rw [ofItems, ih, List.map_cons]

theorem ofMembers_eq (ms : Dict Value) : ofMembers ms = named (Dict.mapValues ofValue ms) := by
  induction ms with
  | nil => rfl
  | cons p ms ih =>
    rw [ofMembers, ih]
    rfl

mutual
theorem value?_ofValue {v : Value} (h : v.Ordered) : (ofValue v).value? = some v := by
  cases v with
  | null => rfl
  | bool b => rfl
  | number n => rfl
  | string s => rfl
  | array vs =>
    rw [Value.Ordered] at h
    rw [ofValue, value?, if_pos (by decide), itemValues?_ofItems h]
    rfl
  | object ms =>
    rw [Value.Ordered] at h
    rw [ofValue, value?, if_pos (by decide), memberValues?_ofMembers h.2, Option.map_some,
      h.1.ofList_eq]

theorem itemValues?_ofItems {vs : List Value} (h : OrderedItems vs) :
    itemValues? (ofItems vs) = some vs := by
  cases vs with
  | nil => rfl
  | cons v vs =>
    rw [OrderedItems] at h
    simp [ofItems, itemValues?, value?_ofValue h.1, itemValues?_ofItems h.2]

theorem memberValues?_ofMembers {ms : List (String × Value)} (h : OrderedMembers ms) :
    memberValues? (ofMembers ms) = some ms := by
  cases ms with
  | nil => rfl
  | cons p ms =>
    rw [OrderedMembers] at h
    simp [ofMembers, memberValues?, value?_ofValue h.1, memberValues?_ofMembers h.2]
end

section
variable {α : Type} {item? : Document → Option α} {known : Dict Document} {name : String}
  {d : Document}

theorem required?_of_find? (h : Dict.find? known name = some d) :
    required? known name item? = item? d := by
  rw [required?, h]
  rfl

theorem optional?_of_find? (h : Dict.find? known name = some d) (default : α) :
    optional? known name default item? = item? d := by
  rw [optional?, h]

end

theorem list?_ofValue {α : Type} {item? : Document → Option α} {encode : α → Value}
    {as : List α} (h : ∀ a ∈ as, item? (ofValue (encode a)) = some a) :
    list? item? (ofValue (.array (as.map encode))) = some as := by
  rw [ofValue, list?, if_pos (by decide), ofItems_eq]
  induction as with
  | nil => rfl
  | cons a as ih =>
    rw [List.map_cons, List.map_cons, List.mapM_cons, h a List.mem_cons_self,
      ih fun b hb => h b (List.mem_cons_of_mem a hb)]
    rfl

theorem strings_ofValue (items : List String) :
    list? string? (ofValue (.strings items)) = some items := list?_ofValue fun _ _ => rfl

theorem dict?_ofValue {α : Type} {item? : Document → Option α} {encode : α → Value}
    (h : ∀ a, item? (ofValue (encode a)) = some a) {d : Dict α} (ordered : Dict.Ordered d) :
    dict? item? (ofValue (.object (Dict.mapValues encode d))) = some d := by
  have hpairs : (named (Dict.mapValues ofValue (Dict.mapValues encode d))).mapM
      (fun m => do some (← m.1, ← item? m.2)) = some d := by
    clear ordered
    induction d with
    | nil => rfl
    | cons p d ih =>
      simp only [Dict.mapValues, List.map_cons, named_cons, List.mapM_cons] at ih ⊢
      rw [ih, h]
      rfl
  rw [ofValue, dict?, if_pos (by decide), ofMembers_eq, hpairs]
  exact congrArg some ordered.ofList_eq

/-- A record that keeps what it does not know is read back as its fields and the others. -/
theorem openRecord?_ofValue {fields : List String} {others given : Dict Value}
    (remaining : Remaining fields others) (nodup : (Dict.keys given).Nodup)
    (within : ∀ name ∈ Dict.keys given, name ∈ fields) :
    ∃ known, openRecord? fields (ofValue (.object (Dict.extend others given))) =
        some (known, others) ∧
      ∀ name ∈ fields, Dict.find? known name = (Dict.find? given name).map ofValue := by
  obtain ⟨ordered, apart⟩ := remaining
  have hordered := ordered.1.extend given
  have hothers : Dict.restrict (fun name => !fields.contains name) (Dict.extend others given) =
      others := by
    apply (hordered.restrict _).eq_of_find? ordered.1
    intro name
    rw [Dict.find?_restrict, Dict.find?_extend nodup]
    by_cases hname : name ∈ fields
    · rw [if_neg (by simpa using hname), apart name hname]
    · have hnone : Dict.find? given name = none := by
        rw [Dict.find?_eq_none_iff]
        exact fun hmem => hname (within name hmem)
      rw [if_pos (by simpa using hname), hnone, Option.none_or]
  have hcollect : collectFields fields
      (named (Dict.mapValues ofValue (Dict.extend others given))) [] =
      some (Dict.ofList (Dict.restrict fields.contains
        (Dict.mapValues ofValue (Dict.extend others given)))) := by
    apply collectFields_named
    · rw [Dict.keys_mapValues]
      exact hordered.nodup_keys
    · simp
  have hrest : memberValues? ((named (Dict.mapValues ofValue (Dict.extend others given))).filter
      fun m => !(m.1.any fields.contains)) = some others := by
    rw [filter_named, Dict.restrict_mapValues, hothers, ← ofMembers_eq,
      memberValues?_ofMembers ordered.2]
  refine ⟨Dict.ofList (Dict.restrict fields.contains
    (Dict.mapValues ofValue (Dict.extend others given))), ?_, fun name hname => ?_⟩
  · rw [ofValue, openRecord?, if_pos (by decide), ofMembers_eq, hcollect, hrest]
    exact congrArg (fun d => some (Dict.ofList _, d)) ordered.1.ofList_eq
  · have hkeep : fields.contains name = true := List.contains_iff_mem.2 hname
    rw [Dict.find?_ofList_restrict, if_pos hkeep, Dict.ofList_mapValues, Dict.find?_mapValues,
      hordered.ofList_eq, Dict.find?_extend nodup, apart name hname, Option.or_none]

end Document
end Json
end TaskGen
