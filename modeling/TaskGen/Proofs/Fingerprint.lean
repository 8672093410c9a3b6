import TaskGen.Proofs.Grouping

/-!
What the text of a pipeline tells of it.  Two pipelines that are the same have the same text
unless a zero of one of them stands where the other one has a zero of the other sign: the zeros
are equal as numbers, but they are written differently.

Main statement: `class_of_same_stages`.
-/

namespace TaskGen
namespace Json

/-! ### Zeros -/

def Number.ZerosAgree : Number → Number → Prop
  | .float x, .float y => x == 0 → y == 0 → x = y
  | _, _ => True

mutual
/-- Where both values have a zero, it has the same sign in both. -/
def Value.ZerosAgree : Value → Value → Prop
  | .number a, .number b => a.ZerosAgree b
  | .array as, .array bs => ItemZerosAgree as bs
  | .object as, .object bs => MemberZerosAgree as bs
  | _, _ => True

def ItemZerosAgree : List Value → List Value → Prop
  | a :: as, b :: bs => a.ZerosAgree b ∧ ItemZerosAgree as bs
  | _, _ => True

def MemberZerosAgree : List (String × Value) → List (String × Value) → Prop
  | (_, a) :: as, (_, b) :: bs => a.ZerosAgree b ∧ MemberZerosAgree as bs
  | _, _ => True
end

theorem zero_ne_negative_zero : (0 : Float) ≠ -0 := by
  intro h
  have hbits := congrArg Float.toBits h
  exact absurd hbits (by decide +kernel)

theorem Number.eq_or_of_same {a b : Number} (same : a.same b = true) :
    a = b ∨ (a = .float 0 ∧ b = .float (-0)) ∨ (a = .float (-0) ∧ b = .float 0) := by
  cases a <;> cases b <;> simp only [Number.same, Bool.false_eq_true] at same
  · rw [beq_iff_eq] at same
    exact .inl (congrArg _ same)
  · rw [Float.beq_iff_ne_nan_and_eq] at same
    obtain ⟨-, -, rfl | ⟨rfl, rfl⟩ | ⟨rfl, rfl⟩⟩ := same
    · exact .inl rfl
    · exact .inr (.inl ⟨rfl, rfl⟩)
    · exact .inr (.inr ⟨rfl, rfl⟩)

theorem Number.zerosAgree_iff {a b : Number} (same : a.same b = true) :
    a.ZerosAgree b ↔ a = b := by
  have hzero : ((0 : Float) == 0) = true := by decide +kernel
  have hnegative : ((-0 : Float) == 0) = true := by decide +kernel
  rcases Number.eq_or_of_same same with rfl | ⟨rfl, rfl⟩ | ⟨rfl, rfl⟩
  · refine iff_of_true ?_ rfl
    cases a with
    | int n => trivial
    | float x => exact fun _ _ => rfl
  · refine iff_of_false (fun h => ?_) (fun h => ?_)
    · exact zero_ne_negative_zero (h hzero hnegative)
    · exact zero_ne_negative_zero (Number.float.inj h)
  · refine iff_of_false (fun h => ?_) (fun h => ?_)
    · exact zero_ne_negative_zero (h hnegative hzero).symm
    · exact zero_ne_negative_zero (Number.float.inj h).symm

mutual
/-- The sign of a zero is all that two values that are the same can differ in. -/
theorem Value.zerosAgree_iff {v w : Value} (same : v.same w = true) :
    v.ZerosAgree w ↔ v = w := by
  cases v with
  | null =>
    cases w with
    | null => exact iff_of_true trivial rfl
    | _ => cases same
  | bool a =>
    cases w with
    | bool b =>
      have hab : a = b := eq_of_beq same
      exact iff_of_true trivial (congrArg _ hab)
    | _ => cases same
  | number a =>
    cases w with
    | number b =>
      rw [Value.number.injEq]
      exact Number.zerosAgree_iff same
    | _ => cases same
  | string a =>
    cases w with
    | string b =>
      have hab : a = b := eq_of_beq same
      exact iff_of_true trivial (congrArg _ hab)
    | _ => cases same
  | array as =>
    cases w with
    | array bs =>
      rw [Value.array.injEq]
      exact itemZerosAgree_iff same
    | _ => cases same
  | object as =>
    cases w with
    | object bs =>
      rw [Value.object.injEq]
      exact memberZerosAgree_iff same
    | _ => cases same

theorem itemZerosAgree_iff {as bs : List Value} (same : sameItems as bs = true) :
    ItemZerosAgree as bs ↔ as = bs := by
  cases as with
  | nil =>
    cases bs with
    | nil => exact iff_of_true trivial rfl
    | cons b bs => cases same
  | cons a as =>
    cases bs with
    | nil => cases same
    | cons b bs =>
      rw [sameItems, Bool.and_eq_true] at same
      rw [ItemZerosAgree, Value.zerosAgree_iff same.1, itemZerosAgree_iff same.2, List.cons.injEq]

theorem memberZerosAgree_iff {as bs : List (String × Value)} (same : sameMembers as bs = true) :
    MemberZerosAgree as bs ↔ as = bs := by
  cases as with
  | nil =>
    cases bs with
    | nil => exact iff_of_true trivial rfl
    | cons q bs => cases same
  | cons p as =>
    cases bs with
    | nil => cases same
    | cons q bs =>
      obtain ⟨k, a⟩ := p
      obtain ⟨l, b⟩ := q
      simp only [sameMembers, Bool.and_eq_true, beq_iff_eq] at same
      obtain ⟨⟨rfl, hab⟩, hrest⟩ := same
      rw [MemberZerosAgree, Value.zerosAgree_iff hab, memberZerosAgree_iff hrest, List.cons.injEq,
        Prod.mk.injEq]
      exact ⟨fun h => ⟨⟨rfl, h.1⟩, h.2⟩, fun h => ⟨h.1.2, h.2⟩⟩
end

/-! ### Texts -/

theorem Number.eq_of_chars {a b : Number} (same : a.same b = true) {r r' : List Char}
    (text : a.chars ++ r = b.chars ++ r') : a = b ∧ r = r' := by
  have hzero : (Number.float 0).chars = ['0', '.', '0'] := by decide +kernel
  have hnegative : (Number.float (-0)).chars = ['-', '0', '.', '0'] := by decide +kernel
  rcases Number.eq_or_of_same same with rfl | ⟨rfl, rfl⟩ | ⟨rfl, rfl⟩
  · exact ⟨rfl, List.append_cancel_left text⟩
  · rw [hzero, hnegative] at text
    exact absurd (List.cons.inj text).1 (by decide)
  · rw [hzero, hnegative] at text
    exact absurd (List.cons.inj text).1 (by decide)

theorem itemChars_cons_cons (v w : Value) (rest : List Value) :
    itemChars (v :: w :: rest) = v.chars ++ ',' :: itemChars (w :: rest) := by
  rw [itemChars]
  simp

theorem memberChars_cons_cons (p q : String × Value) (rest : List (String × Value)) :
    memberChars (p :: q :: rest) =
      quote p.1 ++ ':' :: (p.2.chars ++ ',' :: memberChars (q :: rest)) := by
  rw [memberChars]
  · simp
  · simp

-- What follows the two texts is arbitrary, or the step to the next item would not go through.
mutual
theorem Value.eq_of_chars {v w : Value} (same : v.same w = true) {r r' : List Char}
    (text : v.chars ++ r = w.chars ++ r') : v = w ∧ r = r' := by
  cases v with
  | null =>
    cases w with
    | null => exact ⟨rfl, List.append_cancel_left text⟩
    | _ => cases same
  | bool a =>
    cases w with
    | bool b =>
      have hab : a = b := eq_of_beq same
      subst hab
      exact ⟨rfl, List.append_cancel_left text⟩
    | _ => cases same
  | number a =>
    cases w with
    | number b =>
      rw [Value.chars, Value.chars] at text
      obtain ⟨rfl, hrest⟩ := Number.eq_of_chars same text
      exact ⟨rfl, hrest⟩
    | _ => cases same
  | string a =>
    cases w with
    | string b =>
      have hab : a = b := eq_of_beq same
      subst hab
      exact ⟨rfl, List.append_cancel_left text⟩
    | _ => cases same
  | array as =>
    cases w with
    | array bs =>
      simp only [Value.chars, List.cons_append, List.append_assoc, List.cons.injEq] at text
      obtain ⟨rfl, hrest⟩ := eq_of_itemChars same text.2
      exact ⟨rfl, (List.cons.inj hrest).2⟩
    | _ => cases same
  | object as =>
    cases w with
    | object bs =>
      simp only [Value.chars, List.cons_append, List.append_assoc, List.cons.injEq] at text
      obtain ⟨rfl, hrest⟩ := eq_of_memberChars same text.2
      exact ⟨rfl, (List.cons.inj hrest).2⟩
    | _ => cases same

theorem eq_of_itemChars {as bs : List Value} (same : sameItems as bs = true) {r r' : List Char}
    (text : itemChars as ++ r = itemChars bs ++ r') : as = bs ∧ r = r' := by
  cases as with
  | nil =>
    cases bs with
    | nil => exact ⟨rfl, text⟩
    | cons b bs => cases same
  | cons a as =>
    cases bs with
    | nil => cases same
    | cons b bs =>
      rw [sameItems, Bool.and_eq_true] at same
      cases as with
      | nil =>
        cases bs with
        | nil =>
          obtain ⟨rfl, hrest⟩ := Value.eq_of_chars same.1 text
          exact ⟨rfl, hrest⟩
        | cons b' bs => cases same.2
      | cons a' as =>
        cases bs with
        | nil => cases same.2
        | cons b' bs =>
          rw [itemChars_cons_cons, itemChars_cons_cons, List.append_assoc, List.append_assoc] at text
          obtain ⟨rfl, hcomma⟩ := Value.eq_of_chars same.1 text
          obtain ⟨hitems, hrest⟩ := eq_of_itemChars same.2 (List.cons.inj hcomma).2
          exact ⟨congrArg _ hitems, hrest⟩

theorem eq_of_memberChars {as bs : List (String × Value)} (same : sameMembers as bs = true)
    {r r' : List Char} (text : memberChars as ++ r = memberChars bs ++ r') :
    as = bs ∧ r = r' := by
  cases as with
  | nil =>
    cases bs with
    | nil => exact ⟨rfl, text⟩
    | cons q bs => cases same
  | cons p as =>
    cases bs with
    | nil => cases same
    | cons q bs =>
      obtain ⟨k, a⟩ := p
      obtain ⟨l, b⟩ := q
      simp only [sameMembers, Bool.and_eq_true, beq_iff_eq] at same
      obtain ⟨⟨rfl, hab⟩, hrest⟩ := same
      cases as with
      | nil =>
        cases bs with
        | nil =>
          simp only [memberChars, List.append_assoc, List.cons_append] at text
          have hvalues := (List.cons.inj (List.append_cancel_left text)).2
          obtain ⟨rfl, hend⟩ := Value.eq_of_chars hab hvalues
          exact ⟨rfl, hend⟩
        | cons q' bs => cases hrest
      | cons p' as =>
        cases bs with
        | nil => cases hrest
        | cons q' bs =>
          simp only [memberChars_cons_cons, List.append_assoc, List.cons_append] at text
          have hvalues := (List.cons.inj (List.append_cancel_left text)).2
          obtain ⟨rfl, hcomma⟩ := Value.eq_of_chars hab hvalues
          obtain ⟨hmembers, hend⟩ := eq_of_memberChars hrest (List.cons.inj hcomma).2
          exact ⟨congrArg _ hmembers, hend⟩
end

theorem Value.compact_eq_iff {v w : Value} (same : v.same w = true) :
    v.compact = w.compact ↔ v = w := by
  constructor
  · intro h
    have htext : v.chars ++ [] = w.chars ++ [] := by
      rw [List.append_nil, List.append_nil]
      exact String.ofList_injective h
    exact (Value.eq_of_chars same htext).1
  · intro h
    rw [h]

end Json

/-! ### Pipelines -/

def ZerosAgree (as bs : List ConfiguredStage) : Prop :=
  List.Forall₂ (fun a b => Json.MemberZerosAgree a.options b.options) as bs

def ConfiguredStage.encode (c : ConfiguredStage) : Json.Value :=
  .array [.string c.stage.name, .object c.options]

theorem pipelineText_eq (stages : List ConfiguredStage) :
    pipelineText stages = (Json.Value.array (stages.map ConfiguredStage.encode)).compact := rfl

theorem encode_injective : Function.Injective ConfiguredStage.encode := by
  intro a b h
  simp only [ConfiguredStage.encode, Json.Value.array.injEq, List.cons.injEq,
    Json.Value.string.injEq, Json.Value.object.injEq, and_true] at h
  obtain ⟨stage, options⟩ := a
  obtain ⟨stage', options'⟩ := b
  obtain ⟨hname, hoptions⟩ := h
  dsimp only at hname hoptions
  rw [Stage.name_injective hname, hoptions]

theorem sameItems_encode {as bs : List ConfiguredStage} (same : samePipeline as bs = true) :
    Json.sameItems (as.map ConfiguredStage.encode) (bs.map ConfiguredStage.encode) = true := by
  induction as generalizing bs with
  | nil =>
    cases bs with
    | nil => rfl
    | cons b bs => cases same
  | cons a as ih =>
    cases bs with
    | nil => cases same
    | cons b bs =>
      simp only [samePipeline, ConfiguredStage.same, Bool.and_eq_true, beq_iff_eq] at same
      obtain ⟨⟨hstage, hoptions⟩, hrest⟩ := same
      simp [Json.sameItems, Json.Value.same, ConfiguredStage.encode, hstage, hoptions, ih hrest]

theorem zerosAgree_iff {as bs : List ConfiguredStage} (same : samePipeline as bs = true) :
    ZerosAgree as bs ↔ as = bs := by
  induction as generalizing bs with
  | nil =>
    cases bs with
    | nil => exact iff_of_true .nil rfl
    | cons b bs => cases same
  | cons a as ih =>
    cases bs with
    | nil => cases same
    | cons b bs =>
      simp only [samePipeline, ConfiguredStage.same, Bool.and_eq_true, beq_iff_eq] at same
      obtain ⟨⟨hstage, hoptions⟩, hrest⟩ := same
      obtain ⟨stage, options⟩ := a
      obtain ⟨stage', options'⟩ := b
      dsimp only at hstage hoptions
      subst hstage
      rw [ZerosAgree, List.forall₂_cons, Json.memberZerosAgree_iff hoptions, List.cons.injEq,
        ConfiguredStage.mk.injEq]
      have hmore := ih hrest
      rw [ZerosAgree] at hmore
      rw [hmore]
      exact ⟨fun h => ⟨⟨rfl, h.1⟩, h.2⟩, fun h => ⟨h.1.2, h.2⟩⟩

theorem pipelineText_eq_iff {as bs : List ConfiguredStage} (same : samePipeline as bs = true) :
    pipelineText as = pipelineText bs ↔ as = bs := by
  have hsame : (Json.Value.array (as.map ConfiguredStage.encode)).same
      (.array (bs.map ConfiguredStage.encode)) = true := sameItems_encode same
  rw [pipelineText_eq, pipelineText_eq, Json.Value.compact_eq_iff hsame, Json.Value.array.injEq,
    (List.map_injective_iff.2 encode_injective).eq_iff]

/-! ### Classes -/

namespace RequirementClasses

variable {digest : List ConfiguredStage → String} {cs : RequirementClasses}
  {rs : List Requirement}

/-- The class of the requirement is under one of the names of its digest, and all names before
that one are in use for other stages. -/
def Reached (digest : List ConfiguredStage → String) (cs : RequirementClasses) (key : String)
    (r : Requirement) : Prop :=
  r.sharedStages ≠ [] → ∃ n, key = slotName (digest r.sharedStages) n ∧
    ∀ m < n, isSlotFor cs r.sharedStages (slotName (digest r.sharedStages) m) = false

theorem Reached.place {key : String} {s : Requirement} (h : Reached digest cs key s)
    (r : Requirement) : Reached digest (place digest cs r) key s := by
  intro hne
  obtain ⟨n, hkey, hpassed⟩ := h hne
  exact ⟨n, hkey, fun m hm => isSlotFor_place digest hne (hpassed m hm) r⟩

theorem place_reached (h : ∀ p ∈ cs, ∀ s ∈ p.2.members, Reached digest cs p.1 s)
    (r : Requirement) : ∀ p ∈ place digest cs r, ∀ s ∈ p.2.members,
      Reached digest (place digest cs r) p.1 s := by
  intro p hp s hs
  by_cases hempty : r.sharedStages = []
  · have hplace : RequirementClasses.place digest cs r =
        Dict.insert cs r.identifier ⟨r.identifier, r, []⟩ := by
      rw [RequirementClasses.place, if_pos (by simp [hempty])]
    rw [hplace] at hp
    rcases Dict.mem_of_mem_insert hp with rfl | hold
    · rw [List.mem_singleton.1 hs]
      exact fun hne => absurd hempty hne
    · exact (h p hold s hs).place r
  · obtain ⟨n, hslot, _, hfirst⟩ := exists_slot_eq cs (digest r.sharedStages) r.sharedStages
    have hnew : Reached digest (RequirementClasses.place digest cs r)
        (slot cs (digest r.sharedStages) r.sharedStages) r := by
      intro _
      exact ⟨n, hslot, fun m hm => isSlotFor_place digest hempty (hfirst m hm) r⟩
    rcases place_cases_of_ne_nil digest cs hempty with ⟨_, heq⟩ | ⟨c, hsome, _, heq⟩
    · rw [heq] at hp
      rcases Dict.mem_of_mem_insert hp with rfl | hold
      · rw [List.mem_singleton.1 hs]
        exact hnew
      · exact (h p hold s hs).place r
    · rw [heq] at hp
      rcases Dict.mem_of_mem_insert hp with rfl | hold
      · rw [RequirementClass.members_join] at hs
        rcases List.mem_append.1 hs with hmember | hlast
        · exact (h _ (Dict.mem_of_find? hsome) s hmember).place r
        · rw [List.mem_singleton.1 hlast]
          exact hnew
      · exact (h p hold s hs).place r

theorem classifyWith_reached (digest : List ConfiguredStage → String) (rs : List Requirement) :
    ∀ p ∈ classifyWith digest rs, ∀ s ∈ p.2.members,
      Reached digest (classifyWith digest rs) p.1 s := by
  induction rs using List.reverseRecOn with
  | nil => simp [classifyWith]
  | append_singleton rs r ih =>
    rw [classifyWith_append]
    exact place_reached ih r

/-- The stages of a member are the same as those of the pilot, if they are the same as any. -/
theorem samePipeline_pilot {p : String × RequirementClass} (hp : p ∈ classifyWith digest rs)
    {r : Requirement} (hr : r ∈ p.2.members) {stages : List ConfiguredStage}
    (same : samePipeline r.sharedStages stages = true) :
    samePipeline p.2.sharedStages stages = true := by
  rcases List.mem_cons.1 hr with rfl | hother
  · exact same
  · exact samePipeline_trans ((classifyWith_rooted digest rs p hp).alike r hother) same

theorem isSlotFor_of_mem {p : String × RequirementClass} (hp : p ∈ classifyWith digest rs)
    {r : Requirement} (hr : r ∈ p.2.members) {stages : List ConfiguredStage}
    (same : samePipeline r.sharedStages stages = true) :
    isSlotFor (classifyWith digest rs) stages p.1 = true := by
  have hnodup := (classifyWith_ordered digest rs).nodup_keys
  have hfind : Dict.find? (classifyWith digest rs) p.1 = some p.2 := Dict.find?_of_mem hnodup hp
  rw [isSlotFor, hfind]
  exact samePipeline_pilot hp hr same

/-- No two classes have members with the same stages and the same digest. -/
theorem eq_of_same_digest {p q : String × RequirementClass} (hp : p ∈ classifyWith digest rs)
    (hq : q ∈ classifyWith digest rs) {r s : Requirement} (hr : r ∈ p.2.members)
    (hs : s ∈ q.2.members) (hne : r.sharedStages ≠ [])
    (same : samePipeline r.sharedStages s.sharedStages = true)
    (digests : digest r.sharedStages = digest s.sharedStages) : p = q := by
  have hne' : s.sharedStages ≠ [] := by
    intro hnil
    rw [hnil] at same
    exact hne (eq_nil_of_samePipeline_nil same)
  have same' : samePipeline s.sharedStages r.sharedStages = true := by
    rw [samePipeline_comm]
    exact same
  obtain ⟨n, hpname, hppassed⟩ := classifyWith_reached digest rs p hp r hr hne
  obtain ⟨m, hqname, hqpassed⟩ := classifyWith_reached digest rs q hq s hs hne'
  rw [digests] at hpname hppassed
  -- The search of the later one has passed the name of the other one, which would have fitted.
  rcases Nat.lt_trichotomy n m with hlt | heq | hlt
  · have hfits := isSlotFor_of_mem hp hr same
    rw [hpname, hqpassed n hlt] at hfits
    cases hfits
  · have hname : p.1 = q.1 := by rw [hpname, hqname, heq]
    have hnodup := (classifyWith_ordered digest rs).nodup_keys
    have hfindp : Dict.find? (classifyWith digest rs) p.1 = some p.2 := Dict.find?_of_mem hnodup hp
    have hfindq : Dict.find? (classifyWith digest rs) q.1 = some q.2 := Dict.find?_of_mem hnodup hq
    rw [hname, hfindq] at hfindp
    exact Prod.ext hname (Option.some.inj hfindp).symm
  · have hfits := isSlotFor_of_mem hq hs same'
    rw [hqname, hppassed m hlt] at hfits
    cases hfits

theorem exists_class_of_mem (free : NamesFree digest rs) {r : Requirement} (hr : r ∈ rs) :
    ∃ p ∈ classifyWith digest rs, r ∈ p.2.members := by
  have hmem := (requirements_perm_of_namesFree free).mem_iff.2 hr
  obtain ⟨c, hc, hmember⟩ := List.mem_flatMap.1 hmem
  obtain ⟨p, hp, rfl⟩ := List.mem_map.1 hc
  exact ⟨p, hp, hmember⟩

structure Joined (as bs : List ConfiguredStage) : Prop where
  text : pipelineText as = pipelineText bs ↔ ZerosAgree as bs
  fingerprints : ZerosAgree as bs → fingerprint as = fingerprint bs
  /-- Requirements that are kept are kept in one class. -/
  together : as ≠ [] → fingerprint as = fingerprint bs →
    ∀ rs, ∀ p ∈ classify rs, ∀ q ∈ classify rs, ∀ r ∈ p.2.members, ∀ s ∈ q.2.members,
      r.sharedStages = as → s.sharedStages = bs → p = q
  /-- Where no name is in use when it is needed, all requirements are kept. -/
  found : as ≠ [] → fingerprint as = fingerprint bs →
    ∀ rs, NamesFree fingerprint rs → ∀ r ∈ rs, ∀ s ∈ rs, r.sharedStages = as →
      s.sharedStages = bs → ∃ p ∈ classify rs, r ∈ p.2.members ∧ s ∈ p.2.members

/-- Requirements with the same shared stages come into one class if their zeros agree in sign. -/
theorem class_of_same_stages {as bs : List ConfiguredStage} (same : samePipeline as bs = true) :
    Joined as bs where
  text := by rw [zerosAgree_iff same, pipelineText_eq_iff same]
  fingerprints zeros := by rw [(zerosAgree_iff same).1 zeros]
  together hne digests rs p hp q hq r hr s hs hrs hss := by
    subst hrs hss
    exact eq_of_same_digest hp hq hr hs hne same digests
  found hne digests rs free r hr s hs hrs hss := by
    subst hrs hss
    obtain ⟨p, hp, hrp⟩ := exists_class_of_mem free hr
    obtain ⟨q, hq, hsq⟩ := exists_class_of_mem free hs
    have hpq := eq_of_same_digest hp hq hrp hsq hne same digests
    subst hpq
    exact ⟨p, hp, hrp, hsq⟩

/-- Both pipelines have zeros of both signs. -/
theorem class_of_same_zeros :
    let stages : List ConfiguredStage :=
      [⟨.sourceAnalysis, [("x", .number (.float (-0))), ("y", .array [.number (.float 0)])]⟩]
    samePipeline stages stages = true ∧ Joined stages stages :=
  ⟨by decide +kernel, class_of_same_stages (by decide +kernel)⟩

/-- Zeros of different signs make two classes of requirements with the same shared stages. -/
theorem zeros_make_two_classes :
    let plain : List ConfiguredStage := [⟨.sourceAnalysis, [("x", .number (.float 0))]⟩]
    let negative : List ConfiguredStage := [⟨.sourceAnalysis, [("x", .number (.float (-0)))]⟩]
    samePipeline plain negative = true ∧ fingerprint plain ≠ fingerprint negative ∧
      (classify [⟨"a", plain⟩, ⟨"b", negative⟩]).map (·.2.identifiers) = [["b"], ["a"]] :=
  ⟨by decide +kernel, by decide +kernel, by decide +kernel⟩

end RequirementClasses
end TaskGen
