import Mathlib
import TaskGen.EnvModels
import TaskGen.Proofs.FileTree
import TaskGen.Proofs.Pairs

/-!
Names and files of environment models.  A name that is taken gets its place behind it, and
nobody asks whether the new name is taken as well.  So two models may share a directory.  When
they do is said without the new names: `names_nodup_iff`.

Main statement: `models_apart_iff`.
-/

namespace TaskGen
namespace EnvModels

/-! ### Numbered names -/

theorem dash_notMem_toString (n : Nat) : '-' ∉ (toString n).toList := by
  intro h
  rw [Nat.toString_eq_ofList_toDigits, String.toList_ofList] at h
  exact absurd (Nat.isDigit_of_mem_toDigits (by decide) (by decide) h) (by decide)

/-- What stands behind the last separator. -/
theorem tail_eq_of_append_cons {c : Char} {xs ys ds es : List Char} (hd : c ∉ ds) (he : c ∉ es)
    (h : xs ++ c :: ds = ys ++ c :: es) : ds = es := by
  rcases List.append_eq_append_iff.1 h with ⟨as, _, has⟩ | ⟨bs, _, hbs⟩
  · cases as with
    | nil => exact (List.cons.inj has).2
    | cons a as =>
      have hds := (List.cons.inj has).2
      exact absurd (by rw [hds]; simp) hd
  · cases bs with
    | nil => exact (List.cons.inj hbs).2.symm
    | cons b bs =>
      have hes := (List.cons.inj hbs).2
      exact absurd (by rw [hes]; simp) he

theorem place_of_numbered {a b : String} {n m : Nat}
    (h : a ++ "-" ++ toString n = b ++ "-" ++ toString m) : n = m := by
  have hlist := congrArg String.toList h
  have hdash : "-".toList = ['-'] := rfl
  simp only [String.toList_append, hdash, List.append_assoc, List.singleton_append] at hlist
  have hdigits :=
    tail_eq_of_append_cons (dash_notMem_toString n) (dash_notMem_toString m) hlist
  exact Nat.repr_inj.1 (String.toList_inj.1 hdigits)

/-! ### Names -/

/-- What a description is called if this name is not taken. -/
def proposed (place : Nat) (d : Json.Value) : String :=
  (ownName? d).getD ("model-" ++ toString place)

theorem name_eq (taken : List String) (place : Nat) (d : Json.Value) :
    name taken place d =
      if proposed place d ∈ taken then proposed place d ++ "-" ++ toString place
      else proposed place d := by
  simp [name, proposed]

theorem namesFrom_concat (ds : List Json.Value) (d : Json.Value) :
    ∀ taken place, namesFrom taken place (ds ++ [d]) =
      namesFrom taken place ds ++
        [name (namesFrom taken place ds ++ taken) (place + ds.length) d] := by
  induction ds with
  | nil => intro taken place; rfl
  | cons d' ds ih =>
    intro taken place
    have hplace : place + 1 + ds.length = place + (d' :: ds).length := by
      rw [List.length_cons]
      omega
    simp only [List.cons_append, namesFrom, ih, hplace, name_eq, List.mem_append, List.mem_cons,
      List.cons.injEq, true_and]
    simp only [or_left_comm]

def given (ds : List Json.Value) : List String := namesFrom [] 0 ds

theorem given_concat (ds : List Json.Value) (d : Json.Value) :
    given (ds ++ [d]) = given ds ++ [name (given ds) ds.length d] := by
  have h := namesFrom_concat ds d [] 0
  rw [List.append_nil, Nat.zero_add] at h
  exact h

theorem length_namesFrom (ds : List Json.Value) :
    ∀ taken place, (namesFrom taken place ds).length = ds.length := by
  induction ds with
  | nil => intro taken place; rfl
  | cons d ds ih =>
    intro taken place
    rw [namesFrom, List.length_cons, List.length_cons, ih]

theorem length_names (ds : List Json.Value) : (names ds).length = ds.length := by
  cases ds with
  | nil => rfl
  | cons d ds =>
    cases ds with
    | nil => rfl
    | cons d' ds => exact length_namesFrom _ _ _

/-- A name with a later number behind it is there only if some description calls itself so. -/
theorem numbered_mem_given_iff (ds : List Json.Value) (q : String) :
    ∀ n, ds.length ≤ n → (q ++ "-" ++ toString n ∈ given ds ↔
      ∃ e ∈ ds, ownName? e = some (q ++ "-" ++ toString n)) := by
  induction ds using List.reverseRecOn with
  | nil =>
    intro n _
    simp [given, namesFrom]
  | append_singleton ds d ih =>
    intro n hn
    rw [List.length_append, List.length_singleton] at hn
    have hbefore := ih n (by omega)
    have hnumber : ∀ a : String, a ++ "-" ++ toString ds.length ≠ q ++ "-" ++ toString n := by
      intro a h
      have hplace := place_of_numbered h
      omega
    have hdefault : "model-" ++ toString ds.length ≠ q ++ "-" ++ toString n := hnumber "model"
    rw [given_concat, List.mem_append, List.mem_singleton, hbefore, name_eq]
    constructor
    · rintro (⟨e, he, hown⟩ | hlast)
      · exact ⟨e, List.mem_append_left _ he, hown⟩
      · split at hlast
        · exact absurd hlast.symm (hnumber _)
        · refine ⟨d, List.mem_append_right _ (List.mem_singleton.2 rfl), ?_⟩
          rw [proposed] at hlast
          cases hown : ownName? d with
          | none =>
            rw [hown] at hlast
            exact absurd hlast.symm hdefault
          | some own =>
            rw [hown] at hlast
            rw [hlast]
            rfl
    · rintro ⟨e, he, hown⟩
      rcases List.mem_append.1 he with he | he
      · exact .inl ⟨e, he, hown⟩
      · rw [List.mem_singleton.1 he] at hown
        have hproposed : proposed ds.length d = q ++ "-" ++ toString n := by
          rw [proposed, hown]
          rfl
        by_cases htaken : proposed ds.length d ∈ given ds
        · rw [hproposed] at htaken
          exact .inl (hbefore.1 htaken)
        · rw [if_neg htaken]
          exact .inr hproposed.symm

/-- No description calls itself what a later one is called because its name is taken. -/
def Unclaimed (ds : List Json.Value) : Prop :=
  ∀ before d after, ds = before ++ d :: after → proposed before.length d ∈ given before →
    ∀ e ∈ before, ownName? e ≠
      some (proposed before.length d ++ "-" ++ toString before.length)

theorem unclaimed_concat (ds : List Json.Value) (d : Json.Value) :
    Unclaimed (ds ++ [d]) ↔ Unclaimed ds ∧ name (given ds) ds.length d ∉ given ds := by
  have hlast : name (given ds) ds.length d ∉ given ds ↔
      (proposed ds.length d ∈ given ds → ∀ e ∈ ds, ownName? e ≠
        some (proposed ds.length d ++ "-" ++ toString ds.length)) := by
    rw [name_eq]
    split
    · next htaken =>
      rw [numbered_mem_given_iff ds _ ds.length (Nat.le_refl _)]
      simp [htaken]
    · next hfree => simp [hfree]
  rw [hlast]
  constructor
  · intro h
    refine ⟨fun before e after heq => ?_, h ds d [] rfl⟩
    exact h before e (after ++ [d]) (by rw [heq]; simp)
  · rintro ⟨hds, hd⟩ before e after heq
    rcases cases_of_concat_eq heq with ⟨rfl, rfl, _⟩ | ⟨init, hfront, _⟩
    · exact hd
    · exact hds before e init hfront

theorem given_nodup_iff (ds : List Json.Value) : (given ds).Nodup ↔ Unclaimed ds := by
  induction ds using List.reverseRecOn with
  | nil =>
    refine iff_of_true List.nodup_nil fun before d after heq => ?_
    simp at heq
  | append_singleton ds d ih =>
    rw [given_concat, unclaimed_concat, ← ih, ← List.concat_eq_append, List.nodup_concat]
    exact and_comm

/-- The names are different exactly if nobody has claimed a new one before. -/
theorem names_nodup_iff (ds : List Json.Value) : (names ds).Nodup ↔ Unclaimed ds := by
  cases ds with
  | nil => exact given_nodup_iff []
  | cons d ds =>
    cases ds with
    | nil =>
      -- The only model has a fixed name, and nobody stands before it.
      refine iff_of_true (List.nodup_singleton _) fun before e after heq _ e' he' => ?_
      have hlength := congrArg List.length heq
      simp only [List.length_append, List.length_cons, List.length_nil] at hlength
      have hbefore : before = [] := List.length_eq_zero_iff.1 (by omega)
      rw [hbefore] at he'
      exact absurd he' List.not_mem_nil
    | cons d' ds => exact given_nodup_iff (d :: d' :: ds)

def called (name : String) : Json.Value := .object [(nameAttribute, .string name)]

/-- The third description is called `x-2`, because `x` is taken, and so is the first one. -/
theorem names_collide :
    names [called "x-2", called "x", called "x"] = ["x-2", "x", "x-2"] ∧
      ¬ (names [called "x-2", called "x", called "x"]).Nodup := by
  decide +kernel

/-! ### Files -/

open FileTree

variable {σ : Type}

theorem of_io {α : Type} {a : Act σ FileError α} {world world' : World σ} {result : α}
    (h : Pipeline.io a world = (.done result, world')) : a world = (.done result, world') := by
  rw [Pipeline.io, Act.mapError] at h
  split at h
  · next hact =>
    cases h
    exact hact
  all_goals cases h

theorem of_makeDirs {p : Path} {world world' : World σ} {u : Unit}
    (h : Act.makeDirs p world = (.done u, world')) :
    world'.files = (world.files.makeDirs p).1 := by
  rw [Act.makeDirs] at h
  cases hmake : world.files.makeDirs p with
  | mk files result =>
    rw [hmake] at h
    cases result with
    | ok u' =>
      cases h
      rfl
    | error e => cases h

theorem of_change {f : FileTree → Except FileError FileTree} {world world' : World σ} {u : Unit}
    (h : Act.change f world = (.done u, world')) : f world.files = .ok world'.files := by
  rw [Act.change] at h
  cases hf : f world.files with
  | ok files =>
    rw [hf] at h
    cases h
    rfl
  | error e =>
    rw [hf] at h
    cases h

variable (w : Workspace) (id : AbstractTaskId)

def modelOf (model : String) : EnvModel where
  id := model
  dir := w.modelDir id model
  artifact := (w.modelDir id model).join Workspace.initialTask

def base (here : Location) : Location :=
  follow (if w.root.isAbsolute then [] else here) (Path.trail (w.abstractDir id))

theorem isAbsolute_abstractDir : (w.abstractDir id).isAbsolute = w.root.isAbsolute := by
  rw [Workspace.abstractDir, Path.isAbsolute_join _ (Workspace.isStep_escape _),
    Path.isAbsolute_join _ (Workspace.isStep_escape _)]

theorem placeOf_artifact (here : Location) (model : String) :
    placeOf here (modelOf w id model).artifact =
      base w id here ++ [Workspace.escape model, Workspace.initialTask] := by
  have hdots : ∀ n ∈ [Workspace.escape model], n ≠ "." ∧ n ≠ ".." := by
    intro n hn
    rw [List.mem_singleton.1 hn]
    exact Workspace.escape_ne_dots model
  have habsolute : (w.modelDir id model).isAbsolute = w.root.isAbsolute := by
    rw [Workspace.modelDir, Path.isAbsolute_join _ (Workspace.isStep_escape _),
      isAbsolute_abstractDir]
  rw [modelOf, placeOf_join _ _ Workspace.isStep_initialTask (by decide), habsolute,
    Workspace.trail_modelDir, follow_append, follow_of_ne_dots _ hdots, base, List.append_assoc]
  rfl

theorem placeOf_abstractTasks (here : Location) :
    placeOf here ((w.abstractDir id).join Workspace.abstractTasks) =
      base w id here ++ [Workspace.abstractTasks] := by
  rw [placeOf_join _ _ Workspace.isStep_abstractTasks (by decide), isAbsolute_abstractDir, base]

variable {w id}

/-- Writing a model changes its artifact and makes directories. -/
theorem of_store {model : String} {d : Json.Value} {world world' : World σ} {m : EnvModel}
    (h : store w id model d world = (.done m, world')) :
    m = modelOf w id model ∧
      Grown (· ≠ placeOf world.files.here m.artifact) world.files world'.files ∧
      world'.files.read m.artifact = .ok d.pretty.toUTF8 := by
  obtain ⟨u, made, hmade, h⟩ := Act.exists_of_andThen_done h
  obtain ⟨u', written, hwritten, h⟩ := Act.exists_of_andThen_done h
  cases h
  have hgrown : Grown (· ≠ placeOf world.files.here (modelOf w id model).artifact) world.files
      made.files := by
    rw [of_makeDirs (of_io hmade)]
    exact grown_makeDirs _ _
  obtain ⟨hwrite, hread⟩ := of_write (of_change (of_io hwritten))
  rw [hgrown.here] at hwrite
  exact ⟨rfl, hgrown.trans hwrite, hread⟩

theorem placeOf_artifact_injective (here : Location) :
    Function.Injective fun model => placeOf here (modelOf w id model).artifact := by
  intro a b h
  simp only [placeOf_artifact, List.append_cancel_left_eq, List.cons.injEq] at h
  exact Workspace.escape_injective h.1

/-- Models with different names have their descriptions when all are written. -/
theorem of_storeAll (ps : List (String × Json.Value)) :
    ∀ {world world' : World σ} {models : List EnvModel},
      storeAll w id ps world = (.done models, world') →
      models = ps.map (fun p => modelOf w id p.1) ∧
      Grown (fun loc => ∀ p ∈ ps, loc ≠ placeOf world.files.here (modelOf w id p.1).artifact)
        world.files world'.files ∧
      ((ps.map Prod.fst).Nodup → ∀ p ∈ ps,
        world'.files.read (modelOf w id p.1).artifact = .ok p.2.pretty.toUTF8) := by
  induction ps with
  | nil =>
    intro world world' models h
    cases h
    exact ⟨rfl, .refl _ _, fun _ p hp => absurd hp List.not_mem_nil⟩
  | cons p ps ih =>
    intro world world' models h
    obtain ⟨m, first, hfirst, h⟩ := Act.exists_of_andThen_done h
    obtain ⟨others, last, hlast, h⟩ := Act.exists_of_andThen_done h
    cases h
    obtain ⟨rfl, hgrown, hread⟩ := of_store hfirst
    obtain ⟨rfl, hgrown', hreads⟩ := ih hlast
    rw [hgrown.here] at hgrown'
    refine ⟨rfl, ?_, fun hnodup q hq => ?_⟩
    · refine (hgrown.mono fun loc hloc => hloc p List.mem_cons_self).trans
        (hgrown'.mono fun loc hloc q hq => hloc q (List.mem_cons_of_mem _ hq))
    · obtain ⟨hp, hps⟩ := List.nodup_cons.1 hnodup
      rcases List.mem_cons.1 hq with rfl | hq
      · -- The others are written in other places.
        refine hgrown'.read (fun q' hq' heq => ?_) hread
        rw [hgrown.here] at heq
        have hname := placeOf_artifact_injective world.files.here heq
        exact hp (by rw [hname]; exact List.mem_map_of_mem hq')
      · exact hreads hps q hq

theorem exists_getLast?_outputs {cs : List ConfiguredStage} (h : cs ≠ []) :
    ∃ c, (outputs cs).getLast? = some (c, Workspace.abstractTasks) := by
  induction cs with
  | nil => exact absurd rfl h
  | cons c cs ih =>
    cases cs with
    | nil => exact ⟨c, rfl⟩
    | cons c' cs =>
      obtain ⟨last, hlast⟩ := ih (List.cons_ne_nil _ _)
      refine ⟨last, ?_⟩
      rw [outputs, List.getLast?_cons, hlast]
      rfl
      exact List.cons_ne_nil _ _

/-- The result of a chain is that of its last stage. -/
theorem of_runChain {registry : Registry (Runner σ)} {s : Pipeline.Setting}
    (chain : List (ConfiguredStage × String)) :
    ∀ {input last : Path} {world world' : World σ},
      Pipeline.runChain registry s chain input world = (.done last, world') →
      ∀ c output, chain.getLast? = some (c, output) → last = s.dir.join output := by
  induction chain with
  | nil =>
    intro input last world world' _ c output hlast
    cases hlast
  | cons p chain ih =>
    intro input last world world' h c output hlast
    obtain ⟨u, first, _, h⟩ := Act.exists_of_andThen_done h
    cases chain with
    | nil =>
      cases h
      cases hlast
      rfl
    | cons q chain =>
      rw [List.getLast?_cons_cons] at hlast
      exact ih h c output hlast

theorem of_readDescriptions {p : Path} {world world' : World σ} {ds : List Json.Value}
    (h : readDescriptions p world = (.done ds, world')) :
    world' = world ∧ ∃ bytes v, world.files.read p = .ok bytes ∧
      (String.fromUTF8? bytes).bind Json.Value.ofString? = some v ∧ ds = descriptions v := by
  obtain ⟨bytes, first, hread, h⟩ := Act.exists_of_andThen_done h
  have hfile := of_io hread
  rw [Act.inspect] at hfile
  cases hbytes : world.files.read p with
  | error e =>
    rw [hbytes] at hfile
    cases hfile
  | ok found =>
    rw [hbytes] at hfile
    cases hfile
    cases hv : (String.fromUTF8? bytes).bind Json.Value.ofString? with
    | none =>
      rw [hv] at h
      cases h
    | some v =>
      rw [hv] at h
      cases h
      exact ⟨rfl, bytes, v, rfl, hv, rfl⟩

structure Apart (w : Workspace) (id : AbstractTaskId) (files : FileTree)
    (models : List EnvModel) (ds : List Json.Value) : Prop where
  named : models = (names ds).map (modelOf w id)
  distinct : (models.map (·.id)).Nodup ↔ Unclaimed ds
  /-- Each model has a directory of its own. -/
  placed : (models.map (·.dir)).Nodup ↔ Unclaimed ds
  /-- Each artifact is the description that the model was made of. -/
  written : Unclaimed ds → List.Forall₂
    (fun m d => files.read m.artifact = .ok d.pretty.toUTF8) models ds

theorem map_id_modelOf (ns : List String) : (ns.map (modelOf w id)).map (·.id) = ns := by
  rw [List.map_map]
  exact List.map_id ns

theorem map_dir_modelOf (ns : List String) :
    (ns.map (modelOf w id)).map (·.dir) = ns.map (w.modelDir id) := by
  rw [List.map_map]
  rfl

theorem apart_of_storeAll {ds : List Json.Value} {world world' : World σ} {models : List EnvModel}
    (h : storeAll w id ((names ds).zip ds) world = (.done models, world')) :
    Apart w id world'.files models ds := by
  obtain ⟨hmodels, _, hreads⟩ := of_storeAll _ h
  have hlength := length_names ds
  have hnames : ((names ds).zip ds).map Prod.fst = names ds :=
    List.map_fst_zip (Nat.le_of_eq hlength)
  have hnamed : models = (names ds).map (modelOf w id) := by
    rw [hmodels, ← hnames, List.map_map, hnames]
    rfl
  refine ⟨hnamed, ?_, ?_, fun hunclaimed => ?_⟩
  · rw [hnamed, map_id_modelOf, names_nodup_iff]
  · rw [hnamed, map_dir_modelOf, List.nodup_map_iff (w.modelDir_injective id), names_nodup_iff]
  · rw [hnames, names_nodup_iff] at hreads
    rw [hnamed, List.forall₂_map_left_iff, List.forall₂_iff_zip]
    exact ⟨hlength, fun {m d} hmem => hreads hunclaimed (m, d) hmem⟩

/-- What the last shared stage has written is still there when the models are made of it.  The
models are kept apart exactly if nobody claims a name that a later one gets. -/
theorem models_apart_iff {registry : Registry (Runner σ)} {t : AbstractTask}
    {c : RequirementClass} {world world' : World σ} {models : List EnvModel}
    (shared : c.sharedStages ≠ [])
    (h : generate registry w t c world = (.done models, world')) :
    ∃ bytes v, world'.files.read ((w.abstractDir t.id).join Workspace.abstractTasks) = .ok bytes ∧
      (String.fromUTF8? bytes).bind Json.Value.ofString? = some v ∧
      Apart w t.id world'.files models (descriptions v) := by
  obtain ⟨initial, started, _, h⟩ := Act.exists_of_andThen_done h
  rw [if_neg (by simpa using shared)] at h
  obtain ⟨last, ran, hran, h⟩ := Act.exists_of_andThen_done h
  obtain ⟨found, read, hfound, hstored⟩ := Act.exists_of_andThen_done h
  obtain ⟨stage, houtput⟩ := exists_getLast?_outputs shared
  have hlast := of_runChain _ hran stage _ houtput
  obtain ⟨rfl, bytes, v, hbytes, hv, rfl⟩ := of_readDescriptions hfound
  obtain ⟨_, hgrown, _⟩ := of_storeAll _ hstored
  rw [hlast] at hbytes
  refine ⟨bytes, v, hgrown.read (fun p _ heq => ?_) hbytes, hv, apart_of_storeAll hstored⟩
  -- An artifact is one step farther down.
  rw [placeOf_artifact, placeOf_abstractTasks] at heq
  have hlength := congrArg List.length heq
  simp at hlength

def result? {ε α : Type} (o : Outcome ε α) : Option α :=
  Outcome.casesOn o some (fun _ => none) (fun _ => none) none

theorem eq_of_result? {ε α : Type} {a : Act σ ε α} {world : World σ} {result : α}
    (h : result? (a world).1 = some result) : a world = (.done result, (a world).2) := by
  cases ha : a world with
  | mk outcome world' =>
    rw [ha] at h
    cases outcome with
    | done found =>
      cases h
      rfl
    | failed e => cases h
    | panicked reason => cases h
    | hung => cases h

def sampleStages : Registry (Runner Unit) := Registry.empty.register .environmentModel fun i =>
  Pipeline.writeJson i.output (.array [called "probe", .object [], called "probe"])

def sampleWorkspace : Workspace := ⟨⟨"/w"⟩⟩

def sampleTask : AbstractTask := ⟨⟨"f", "k"⟩, ⟨"/f.json"⟩⟩

def sampleClass : RequirementClass := ⟨"k", ⟨"r", [⟨.environmentModel, []⟩]⟩, []⟩

def sampleModels : List EnvModel :=
  ["probe", "model-1", "probe-2"].map (modelOf sampleWorkspace sampleTask.id)

def sampleWorld : World Unit where
  files := FileTree.empty.put ["f.json"]
    (.file (Json.Value.object [("id", .string "f")]).pretty.toUTF8)
  clock := ⟨0⟩
  stopped := none
  others := ()

theorem models_apart_of_sample :
    ∃ world', generate sampleStages sampleWorkspace sampleTask sampleClass sampleWorld =
        (.done sampleModels, world') ∧
      ∃ bytes v, world'.files.read
          ((sampleWorkspace.abstractDir sampleTask.id).join Workspace.abstractTasks) = .ok bytes ∧
        (String.fromUTF8? bytes).bind Json.Value.ofString? = some v ∧
        Apart sampleWorkspace sampleTask.id world'.files sampleModels (descriptions v) := by
  have hdone : generate sampleStages sampleWorkspace sampleTask sampleClass sampleWorld =
      (.done sampleModels, _) := eq_of_result? (by decide +kernel)
  exact ⟨_, hdone, models_apart_iff (by decide) hdone⟩

end EnvModels
end TaskGen
