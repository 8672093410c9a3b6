import TaskGen.Proofs.Coincidences.Models
import TaskGen.Proofs.Json.Records

/-!
Descriptions of fragments on their way to the stages.  A description is read, encoded and written
as an initial abstract task.  Nothing of the object is lost on this way: not its unknown
attributes, and not those of its groups.

Main statement: `EnvModels.carried_of_decoded`.
-/

namespace TaskGen

open Json Json.Document

namespace CompilationGroup

def fields : List String := ["id", "CCs", "files"]

def blank : Dict Value := [("CCs", .array []), ("files", .array [])]

/-- A group with empty lists in place of those that are not given. -/
def completed : Value → Value
  | .object members => .object (Dict.extend blank members)
  | v => v

def written (g : CompilationGroup) : Dict Value :=
  [("CCs", .strings g.calls), ("files", .strings g.files), ("id", .string g.id)]

theorem nodup_written (g : CompilationGroup) : (Dict.keys g.written).Nodup := by
  show ["CCs", "files", "id"].Nodup
  decide

theorem toJson_eq (g : CompilationGroup) :
    g.toJson = .object (Dict.extend g.others g.written) := rfl

theorem exists_parts {d : Document} {g : CompilationGroup} (h : ofDocument? d = some g) :
    ∃ known members, d.value? = some (.object members) ∧
      Parts fields known g.others members ∧
      Told known "id" (fun v => v) none (.string g.id) ∧
      Told known "CCs" (fun v => v) (some (.array [])) (.strings g.calls) ∧
      Told known "files" (fun v => v) (some (.array [])) (.strings g.files) := by
  simp only [ofDocument?, Option.bind_eq_bind, Option.bind_eq_some_iff] at h
  obtain ⟨⟨known, others⟩, hopen, ident, hid, calls, hcalls, files, hfiles, heq⟩ := h
  cases heq
  have id := told_of_required? tells_string hid
  have ccs := told_of_optional? tells_strings hcalls
  have fs := told_of_optional? tells_strings hfiles
  obtain ⟨members, hvalue, parts⟩ := parts_of_openRecord? hopen (by
    simp only [List.forall_mem_cons]
    exact ⟨id.readable, ccs.readable, fs.readable, by simp⟩)
  exact ⟨known, members, hvalue, parts, id, ccs, fs⟩

theorem tells_group : Tells completed toJson ofDocument? := by
  intro d g h
  obtain ⟨known, members, hvalue, parts, hid, hcalls, hfiles⟩ := exists_parts h
  refine ⟨.object members, hvalue, congrArg Value.object ?_⟩
  apply parts.extend_eq parts.ordered
  · exact List.pairwise_pair.2 (by decide)
  · exact g.nodup_written
  · have hid := parts.told (by decide) hid
    have hcalls := parts.told (by decide) hcalls
    have hfiles := parts.told (by decide) hfiles
    rw [Option.map_id'] at hid hcalls hfiles
    simp only [fields, List.forall_mem_cons]
    exact ⟨hid, hcalls, hfiles, by simp⟩
  · intro name hname
    simp only [fields, List.mem_cons, not_or] at hname
    simp [blank, Dict.find?_cons, eq_comm, hname]

/-- The group with the empty lists is another form of the same object. -/
theorem exists_of_completed {v : Value} {g : CompilationGroup} (ordered : v.Ordered)
    (h : completed v = g.toJson) : ∃ members encoded, v = .object members ∧
      g.toJson = .object encoded ∧ ∀ name, Dict.find? encoded name =
        (Dict.find? members name).or (Dict.find? blank name) := by
  cases v with
  | object members =>
    refine ⟨members, Dict.extend blank members, rfl, h.symm, fun name => ?_⟩
    exact Dict.find?_extend ordered.1.nodup_keys name
  | _ => cases h

theorem remaining_of_ofDocument? {d : Document} {g : CompilationGroup}
    (h : ofDocument? d = some g) : Remaining fields g.others := by
  obtain ⟨known, members, hvalue, parts, -⟩ := exists_parts h
  exact parts.remaining (ordered_of_value? d _ hvalue)

theorem ofDocument?_ofValue {g : CompilationGroup} (h : Remaining fields g.others) :
    ofDocument? (ofValue g.toJson) = some g := by
  obtain ⟨known, hopen, hknown⟩ := openRecord?_ofValue h g.nodup_written
    (show ∀ name ∈ ["CCs", "files", "id"], name ∈ fields by decide)
  have hid : Dict.find? known "id" = some (ofValue (.string g.id)) := hknown "id" (by decide)
  have hcalls : Dict.find? known "CCs" = some (ofValue (.strings g.calls)) :=
    hknown "CCs" (by decide)
  have hfiles : Dict.find? known "files" = some (ofValue (.strings g.files)) :=
    hknown "files" (by decide)
  rw [fields, ← toJson_eq] at hopen
  simp only [ofDocument?, hopen, Option.bind_eq_bind, Option.bind_some, required?_of_find? hid,
    optional?_of_find? hcalls, optional?_of_find? hfiles, strings_ofValue]
  rfl

end CompilationGroup

namespace Fragment

def fields : List String := ["id", "grps", "deps"]

def blank : Dict Value := [("deps", .object []), ("grps", .array [])]

/-- A description with an empty list of groups and no dependencies in place of those that are not
given, and with its groups completed. -/
def completed : Value → Value
  | .object members =>
    .object (Dict.extend blank
      (Dict.update "grps" (Value.mapItems CompilationGroup.completed) members))
  | v => v

def written (f : Fragment) : Dict Value :=
  [("deps", .object (Dict.mapValues .strings f.dependencies)),
    ("grps", .array (f.groups.map (·.toJson))), ("id", .string f.id)]

theorem nodup_written (f : Fragment) : (Dict.keys f.written).Nodup := by
  show ["deps", "grps", "id"].Nodup
  decide

theorem attributes_eq (f : Fragment) : f.attributes = Dict.extend f.others f.written := rfl

theorem exists_parts {d : Document} {f : Fragment} (h : ofDocument? d = some f) :
    ∃ known members, d.value? = some (.object members) ∧
      Parts fields known f.others members ∧
      Told known "id" (fun v => v) none (.string f.id) ∧
      Told known "grps" (Value.mapItems CompilationGroup.completed) (some (.array []))
        (.array (f.groups.map (·.toJson))) ∧
      Told known "deps" (fun v => v) (some (.object []))
        (.object (Dict.mapValues .strings f.dependencies)) := by
  simp only [ofDocument?, Option.bind_eq_bind, Option.bind_eq_some_iff] at h
  obtain ⟨⟨known, others⟩, hopen, name, hname, groups, hgroups, deps, hdeps, heq⟩ := h
  cases heq
  have hname := told_of_required? tells_string hname
  have hgroups := told_of_optional? (tells_list CompilationGroup.tells_group) hgroups
  have hdeps := told_of_optional? (tells_dict tells_strings) hdeps
  obtain ⟨members, hvalue, parts⟩ := parts_of_openRecord? hopen (by
    simp only [List.forall_mem_cons]
    exact ⟨hname.readable, hgroups.readable, hdeps.readable, by simp⟩)
  exact ⟨known, members, hvalue, parts, hname, hgroups, hdeps⟩

theorem tells_fragment : Tells completed toJson ofDocument? := by
  intro d f h
  obtain ⟨known, members, hvalue, parts, hid, hgroups, hdeps⟩ := exists_parts h
  refine ⟨.object members, hvalue, congrArg Value.object ?_⟩
  apply parts.extend_eq (parts.ordered.update _ _)
  · exact List.pairwise_pair.2 (by decide)
  · exact f.nodup_written
  · have hid := parts.told (by decide) hid
    have hgroups := parts.told (by decide) hgroups
    have hdeps := parts.told (by decide) hdeps
    simp only [fields, List.forall_mem_cons, Dict.find?_update]
    exact ⟨hid, hgroups, hdeps, by simp⟩
  · intro name hname
    simp only [fields, List.mem_cons, not_or] at hname
    rw [Dict.find?_update, if_neg hname.2.1]
    simp [blank, Dict.find?_cons, eq_comm, hname]

/-! ### Reading back -/

structure WellFormed (f : Fragment) : Prop where
  others : Remaining fields f.others
  dependencies : Dict.Ordered f.dependencies
  groups : ∀ g ∈ f.groups, Remaining CompilationGroup.fields g.others

theorem wellFormed_of_ofDocument? {d : Document} {f : Fragment} (h : ofDocument? d = some f) :
    WellFormed f := by
  obtain ⟨_, members, hvalue, parts, -⟩ := exists_parts h
  simp only [ofDocument?, Option.bind_eq_bind, Option.bind_eq_some_iff] at h
  obtain ⟨⟨known, others⟩, _, _, _, groups, hgroups, deps, hdeps, heq⟩ := h
  cases heq
  refine ⟨parts.remaining (ordered_of_value? d _ hvalue), ?_, fun g hg => ?_⟩
  · rcases of_optional? hdeps with rfl | ⟨e, he⟩
    · exact .nil
    · exact ordered_of_dict? he
  · rcases of_optional? hgroups with rfl | ⟨e, he⟩
    · exact absurd hg List.not_mem_nil
    · obtain ⟨item, hitem⟩ := exists_of_mem_list? he g hg
      exact CompilationGroup.remaining_of_ofDocument? hitem

theorem ofDocument?_ofValue {f : Fragment} (h : WellFormed f) :
    ofDocument? (ofValue f.toJson) = some f := by
  obtain ⟨known, hopen, hknown⟩ := openRecord?_ofValue h.others f.nodup_written
    (show ∀ name ∈ ["deps", "grps", "id"], name ∈ fields by decide)
  have hid : Dict.find? known "id" = some (ofValue (.string f.id)) := hknown "id" (by decide)
  have hgroups : Dict.find? known "grps" = some (ofValue (.array (f.groups.map (·.toJson)))) :=
    hknown "grps" (by decide)
  have hdeps : Dict.find? known "deps" =
      some (ofValue (.object (Dict.mapValues .strings f.dependencies))) :=
    hknown "deps" (by decide)
  rw [fields, ← attributes_eq] at hopen
  have hreadGroups : list? CompilationGroup.ofDocument?
      (ofValue (.array (f.groups.map (·.toJson)))) = some f.groups :=
    list?_ofValue fun g hg => CompilationGroup.ofDocument?_ofValue (h.groups g hg)
  have hreadDeps : dict? (list? string?)
      (ofValue (.object (Dict.mapValues .strings f.dependencies))) = some f.dependencies :=
    dict?_ofValue strings_ofValue h.dependencies
  simp only [ofDocument?, toJson, hopen, Option.bind_eq_bind, Option.bind_some,
    required?_of_find? hid, optional?_of_find? hgroups, optional?_of_find? hdeps, hreadGroups,
    hreadDeps]
  rfl

/-- The groups are read from the array that is given, or there is none and they are none. -/
theorem groups_cases {d : Document} {f : Fragment} (h : ofDocument? d = some f)
    {members : Dict Value} (value : d.value? = some (.object members)) :
    (Dict.find? members "grps" = none ∧ f.groups = []) ∨
      ∃ groups, Dict.find? members "grps" = some (.array groups) ∧
        List.Forall₂ (fun v g => CompilationGroup.completed v = g.toJson) groups f.groups := by
  obtain ⟨known, members', hvalue, parts, -, hgroups, -⟩ := exists_parts h
  rw [value] at hvalue
  cases hvalue
  have htold := parts.told (by decide) hgroups
  cases hfind : Dict.find? members "grps" with
  | none =>
    rw [hfind] at htold
    have hnil : f.groups.map (·.toJson) = [] := (Value.array.inj (Option.some.inj htold)).symm
    exact .inl ⟨rfl, List.map_eq_nil_iff.1 hnil⟩
  | some v =>
    rw [hfind] at htold
    have hitems : Value.mapItems CompilationGroup.completed v =
        .array (f.groups.map (·.toJson)) := Option.some.inj htold
    cases v with
    | array groups =>
      refine .inr ⟨groups, rfl, ?_⟩
      have hmap := Value.array.inj hitems
      rw [← List.forall₂_eq_eq_eq, List.forall₂_map_left_iff, List.forall₂_map_right_iff] at hmap
      exact hmap
    | _ => cases hitems

/-! ### Files -/

theorem mem_files {f : Fragment} {file : String} :
    file ∈ f.files ↔ ∃ g ∈ f.groups, file ∈ g.files := by
  rw [files, Dict.mem_keys_ofList, Dict.keys, List.map_map, ← List.mem_flatMap]
  simp

theorem pairwise_files (f : Fragment) : f.files.Pairwise (· < ·) :=
  (Dict.ordered_ofList _).pairwise_keys

def ListedIn (file : String) (group : Value) : Prop :=
  ∃ members files, group = .object members ∧ Dict.find? members "files" = some (.array files) ∧
    .string file ∈ files

theorem listedIn_iff {v : Value} {g : CompilationGroup} (ordered : v.Ordered)
    (h : CompilationGroup.completed v = g.toJson) (file : String) :
    ListedIn file v ↔ file ∈ g.files := by
  obtain ⟨members, encoded, rfl, hencoded, hfind⟩ :=
    CompilationGroup.exists_of_completed ordered h
  have hgiven : Dict.find? encoded "files" = some (.strings g.files) := by
    cases hencoded
    exact Dict.find?_extend g.nodup_written "files"
  have hfiles := hfind "files"
  rw [hgiven] at hfiles
  constructor
  · rintro ⟨members', files, hmembers, hlisted, hmem⟩
    cases hmembers
    rw [hlisted] at hfiles
    have hsame : files = g.files.map .string := (Value.array.inj (Option.some.inj hfiles)).symm
    rw [hsame] at hmem
    obtain ⟨name, hname, heq⟩ := List.mem_map.1 hmem
    cases heq
    exact hname
  · intro hmem
    cases hlisted : Dict.find? members "files" with
    | none =>
      rw [hlisted] at hfiles
      have hnil : g.files.map Value.string = [] := Value.array.inj (Option.some.inj hfiles)
      rw [List.map_eq_nil_iff.1 hnil] at hmem
      cases hmem
    | some v =>
      rw [hlisted] at hfiles
      have hsame : v = .strings g.files := (Option.some.inj hfiles).symm
      exact ⟨members, _, rfl, by rw [hlisted, hsame]; rfl, List.mem_map_of_mem hmem⟩

end Fragment

/-! ### The initial description -/

namespace EnvModels

open Fragment

def ownAttributes : List String := ["files", "fragment", "requirement class"]

def own (f : Fragment) (c : RequirementClass) : Dict Value :=
  [("files", .strings f.files), ("fragment", .string f.id), ("requirement class", .string c.key)]

theorem nodup_own (f : Fragment) (c : RequirementClass) : (Dict.keys (own f c)).Nodup := by
  show ownAttributes.Nodup
  decide

theorem initialDescription_eq (f : Fragment) (c : RequirementClass) :
    initialDescription f c = .object (Dict.extend f.attributes (own f c)) := rfl

/-- All attributes of a group are kept.  Lists that are not given are empty. -/
def GroupKept (v w : Value) : Prop :=
  ∃ members encoded, v = .object members ∧ w = .object encoded ∧
    ∀ name, Dict.find? encoded name =
      (Dict.find? members name).or (Dict.find? CompilationGroup.blank name)

/-- What the initial description for a class says of the object that the fragment was read
from. -/
structure Initial (members : Dict Value) (f : Fragment) (c : RequirementClass) (o : Dict Value) :
    Prop where
  ordered : Dict.Ordered o
  fragment : Dict.find? o "fragment" = Dict.find? members "id"
  requirementClass : Dict.find? o "requirement class" = some (.string c.key)
  files : ∃ files, Dict.find? o "files" = some (.strings files) ∧ files.Pairwise (· < ·) ∧
    ∀ file, file ∈ files ↔ ∃ groups, Dict.find? members "grps" = some (.array groups) ∧
      ∃ group ∈ groups, ListedIn file group
  /-- Everything else is as it is encoded. -/
  encoded : ∀ name ∉ ownAttributes, Dict.find? o name = Dict.find? f.attributes name
  /-- Everything that is no group is as it was read. -/
  kept : ∀ name ∉ ownAttributes, name ≠ "grps" → ∀ v, Dict.find? members name = some v →
    Dict.find? o name = some v
  groups : ∀ groups, Dict.find? members "grps" = some (.array groups) →
    ∃ encoded, Dict.find? o "grps" = some (.array encoded) ∧ List.Forall₂ GroupKept groups encoded

structure Carried (members : Dict Value) (f : Fragment) : Prop where
  encoded : f.toJson = completed (.object members)
  decoded : ofDocument? (ofValue f.toJson) = some f
  initial : ∀ c, ∃ o, initialDescription f c = .object o ∧ Initial members f c o
  /-- This is what the first stage gets. -/
  written : ∀ {σ : Type} (w : Workspace) (t : AbstractTask) (c : RequirementClass)
    (world world' : World σ) (p : Path), Fragment.load world.files t.descriptor = .ok f →
    start w t c world = (.done p, world') →
    p = (w.abstractDir t.id).join Workspace.initialTask ∧
      world'.files.read p = .ok (initialDescription f c).pretty.toUTF8

theorem written_of_start {σ : Type} {w : Workspace} {t : AbstractTask} {c : RequirementClass}
    {world world' : World σ} {p : Path} {f : Fragment}
    (load : Fragment.load world.files t.descriptor = .ok f)
    (h : start w t c world = (.done p, world')) :
    p = (w.abstractDir t.id).join Workspace.initialTask ∧
      world'.files.read p = .ok (initialDescription f c).pretty.toUTF8 := by
  simp only [start, Act.bind_eq_andThen] at h
  obtain ⟨_, made, hmade, h⟩ := Act.exists_of_andThen_done h
  have hgrown : FileTree.Grown (fun _ => True) world.files made.files := by
    rw [of_makeDirs (of_io hmade)]
    exact FileTree.grown_makeDirs _ _
  have hfragment : (Act.ofExcept (Fragment.load made.files t.descriptor)).mapError
      StageError.fragment made = (.done f, made) := by
    rw [load_of_grown hgrown load]
    rfl
  rw [Act.andThen_of_done (show Act.files made = (.done made.files, made) from rfl),
    Act.andThen_of_done hfragment] at h
  obtain ⟨_, written, hwritten, h⟩ := Act.exists_of_andThen_done h
  rw [Act.pure_eq] at h
  obtain ⟨hpath, rfl⟩ := Prod.mk.inj h
  rw [← Outcome.done.inj hpath]
  exact ⟨rfl, (FileTree.of_write (of_change (of_io hwritten))).2⟩

section
variable {d : Document} {f : Fragment} {members : Dict Value}

theorem completed_of_decoded (decoded : ofDocument? d = some f)
    (value : d.value? = some (.object members)) : completed (.object members) = f.toJson := by
  obtain ⟨v, hvalue, hcompleted⟩ := tells_fragment d f decoded
  rw [value] at hvalue
  cases hvalue
  exact hcompleted

theorem find?_attributes_of_ne (ordered : Dict.Ordered members)
    (encoded : completed (.object members) = f.toJson) {name : String} (other : name ≠ "grps") :
    Dict.find? f.attributes name =
      (Dict.find? members name).or (Dict.find? Fragment.blank name) := by
  rw [← Value.object.inj encoded, Dict.find?_extend (ordered.update _ _).nodup_keys,
    Dict.find?_update, if_neg other, Option.map_id']

theorem groupKept_of_forall₂ {vs : List Value} {gs : List CompilationGroup}
    (ordered : ∀ v ∈ vs, v.Ordered)
    (h : List.Forall₂ (fun v g => CompilationGroup.completed v = g.toJson) vs gs) :
    List.Forall₂ GroupKept vs (gs.map (·.toJson)) := by
  rw [List.forall₂_map_right_iff]
  induction h with
  | nil => exact .nil
  | cons hv _ ih =>
    refine .cons ?_ (ih fun w hw => ordered w (List.mem_cons_of_mem _ hw))
    exact CompilationGroup.exists_of_completed (ordered _ List.mem_cons_self) hv

theorem listed_iff {vs : List Value} {gs : List CompilationGroup} (ordered : ∀ v ∈ vs, v.Ordered)
    (h : List.Forall₂ (fun v g => CompilationGroup.completed v = g.toJson) vs gs) (file : String) :
    (∃ g ∈ gs, file ∈ g.files) ↔ ∃ v ∈ vs, ListedIn file v := by
  induction h with
  | nil => simp
  | cons hv _ ih =>
    rw [List.exists_mem_cons_iff, List.exists_mem_cons_iff,
      listedIn_iff (ordered _ List.mem_cons_self) hv,
      ih fun w hw => ordered w (List.mem_cons_of_mem _ hw)]

theorem initial_of_decoded (decoded : ofDocument? d = some f)
    (value : d.value? = some (.object members)) (c : RequirementClass) :
    ∃ o, initialDescription f c = .object o ∧ Initial members f c o := by
  have hordered : (Value.object members).Ordered := ordered_of_value? d _ value
  have hitems : ∀ groups, Dict.find? members "grps" = some (.array groups) →
      ∀ v ∈ groups, v.Ordered := by
    intro groups hgroups
    exact ordered_of_mem_items (hordered.of_mem (Dict.mem_of_find? hgroups))
  have hencoded := completed_of_decoded decoded value
  have hattributes : Dict.Ordered f.attributes := by
    rw [← Value.object.inj hencoded]
    exact Dict.Ordered.extend (List.pairwise_pair.2 (by decide)) _
  have hfind (name : String) : Dict.find? (Dict.extend f.attributes (own f c)) name =
      (Dict.find? (own f c) name).or (Dict.find? f.attributes name) :=
    Dict.find?_extend (nodup_own f c) name
  have hencoding : ∀ name ∉ ownAttributes,
      Dict.find? (Dict.extend f.attributes (own f c)) name = Dict.find? f.attributes name := by
    intro name hname
    have hnone : Dict.find? (own f c) name = none := Dict.find?_eq_none_iff.2 hname
    rw [hfind name, hnone, Option.none_or]
  refine ⟨_, initialDescription_eq f c, ?_⟩
  constructor
  case ordered => exact hattributes.extend _
  case fragment =>
    obtain ⟨_, members', hvalue, parts, hid, -⟩ := Fragment.exists_parts decoded
    rw [value] at hvalue
    cases hvalue
    have htold := parts.told (by decide) hid
    rw [Option.map_id', Option.or_none] at htold
    exact (hfind "fragment").trans htold.symm
  case requirementClass => exact hfind "requirement class"
  case files =>
    refine ⟨f.files, hfind "files", pairwise_files f, fun file => mem_files.trans ?_⟩
    rcases groups_cases decoded value with ⟨hnone, hnil⟩ | ⟨groups, hgroups, hforall⟩
    · simp [hnone, hnil]
    · rw [listed_iff (hitems groups hgroups) hforall]
      simp [hgroups]
  case encoded => exact hencoding
  case kept =>
    intro name hname hgroups v hv
    rw [hencoding name hname, find?_attributes_of_ne hordered.1 hencoded hgroups, hv]
    rfl
  case groups =>
    intro groups hgroups
    rcases groups_cases decoded value with ⟨hnone, -⟩ | ⟨groups', hgroups', hforall⟩
    · rw [hnone] at hgroups
      cases hgroups
    · rw [hgroups] at hgroups'
      cases hgroups'
      refine ⟨f.groups.map (·.toJson), ?_, groupKept_of_forall₂ (hitems groups hgroups) hforall⟩
      rw [hencoding "grps" (by decide)]
      exact Dict.find?_extend f.nodup_written "grps"

end

/-- The description of a fragment comes to the stages as it was read. -/
theorem carried_of_decoded {d : Document} {f : Fragment} (decoded : ofDocument? d = some f) :
    ∃ members, d.value? = some (.object members) ∧ Carried members f := by
  obtain ⟨_, members, hvalue, -⟩ := Fragment.exists_parts decoded
  refine ⟨members, hvalue, ?_⟩
  constructor
  case encoded => exact (completed_of_decoded decoded hvalue).symm
  case decoded => exact Fragment.ofDocument?_ofValue (wellFormed_of_ofDocument? decoded)
  case initial => exact initial_of_decoded decoded hvalue
  case written => exact fun w t c world world' p load done => written_of_start load done

/-- An unknown attribute that is given twice and one that has the name of an attribute of the
initial description, and a group without calls that has an unknown attribute of its own. -/
theorem carried_of_sample :
    let d : Document := .object 1
      [(some "size", .number (some (.int 7))), (some "files", .array 2 [.string (some "own")]),
        (some "id", .string (some "f")),
        (some "grps", .array 2 [.object 3 [(some "id", .string (some "g")),
          (some "files", .array 4 [.string (some "b.c"), .string (some "a.c")]),
          (some "arch", .object 4 [(some "bits", .number (some (.int 64)))])]]),
        (some "size", .number (some (.int 8)))]
    let f : Fragment := {
      id := "f"
      groups := [⟨"g", [], ["b.c", "a.c"], [("arch", .object [("bits", .number (.int 64))])]⟩]
      dependencies := []
      others := [("files", .array [.string "own"]), ("size", .number (.int 8))] }
    ofDocument? d = some f ∧ ∃ members, d.value? = some (.object members) ∧ Carried members f :=
  ⟨by rfl, carried_of_decoded (by rfl)⟩

end EnvModels

end TaskGen
