import TaskGen.Proofs.Pipeline.Supervision

/-!
What a chain of stages makes of its input.  The runners are partial functions of the stage, the
options document and the content of the input, and they keep notes of how often they are called.
The chain composes these functions, and behind a stage that fails none is called any more.

Main statement: `runChain_run`.
-/

namespace TaskGen

open FileTree

namespace Pipeline

variable {σ ε α β : Type}

/-! ### Actions that are not done -/

theorem isDone_iff {o : Outcome ε α} : o.isDone = true ↔ ∃ result, o = .done result := by
  cases o with
  | done result => simp [Outcome.isDone]
  | failed e => simp [Outcome.isDone]
  | panicked reason => simp [Outcome.isDone]
  | hung => simp [Outcome.isDone]

theorem eq_of_isDone {a : Act σ ε α} {w : World σ} (h : (a w).1.isDone = true) :
    ∃ result, a w = (.done result, (a w).2) := by
  obtain ⟨result, hresult⟩ := isDone_iff.1 h
  exact ⟨result, Prod.ext hresult rfl⟩

theorem ne_done {o : Outcome ε α} (h : o.isDone = false) (result : α) : o ≠ .done result := by
  intro heq
  rw [heq] at h
  cases h

/-- Behind an action that is not done nothing happens. -/
theorem bind_undone {a : Act σ ε α} {w : World σ} (h : (a w).1.isDone = false)
    (next : α → Act σ ε β) :
    ((a >>= next) w).1.isDone = false ∧ ((a >>= next) w).2 = (a w).2 := by
  rw [Act.bind_eq_andThen, Act.andThen]
  cases ha : a w with
  | mk outcome u =>
    rw [ha] at h
    cases outcome with
    | done result => cases h
    | failed e => exact ⟨rfl, rfl⟩
    | panicked reason => exact ⟨rfl, rfl⟩
    | hung => exact ⟨rfl, rfl⟩

/-! ### Runners as functions -/

variable {notes : σ → List (Invocation × Bool)}
  {f : Stage → ByteArray → ByteArray → Option ByteArray}

/-- The runner computes a partial function of the stage, the options document and the content of
the input, and writes nothing but its output.  What it does if the function has no value is up to
it, as long as it does not report success. -/
structure Computes (notes : σ → List (Invocation × Bool))
    (f : Stage → ByteArray → ByteArray → Option ByteArray) (r : Runner σ) : Prop where
  /-- Every call is taken down, with whether it succeeded. -/
  noted : ∀ i world,
    notes (r i world).2.others = notes world.others ++ [(i, (r i world).1.isDone)]
  done : ∀ i world, (r i world).1.isDone = true → ∃ conf content output,
    world.files.read i.confPath = .ok conf ∧ world.files.read i.input = .ok content ∧
      f i.stage conf content = some output ∧ (r i world).2.files.read i.output = .ok output
  confined : ∀ i world,
    Touches (· = placeOf world.files.here i.output) world.files (r i world).2.files

def compose (f : Stage → ByteArray → ByteArray → Option ByteArray) :
    List Invocation → ByteArray → Option ByteArray
  | [], content => some content
  | i :: rest, content => (f i.stage i.conf.pretty.toUTF8 content).bind (compose f rest)

def invocations (s : Setting) : List (ConfiguredStage × String) → Path → List Invocation
  | [], _ => []
  | (c, output) :: rest, input =>
    let i := s.invocation c input output
    i :: invocations s rest i.output

structure Linked (s : Setting) (chain : List (ConfiguredStage × String)) (input : Path)
    (plan : List Invocation) : Prop where
  stages : plan.map (fun i => (i.stage, i.options, i.output)) =
    chain.map fun p => (p.1.stage, p.1.options, s.dir.join p.2)
  first : ∀ i, plan.head? = some i → i.input = input
  next : plan.IsChain fun i j => j.input = i.output
  setting : ∀ i ∈ plan, i.requirement = s.requirement ∧ i.limits = s.limits

theorem linked_invocations (s : Setting) (chain : List (ConfiguredStage × String))
    (input : Path) : Linked s chain input (invocations s chain input) := by
  induction chain generalizing input with
  | nil => exact ⟨rfl, fun i h => (by cases h), .nil, fun i h => (by cases h)⟩
  | cons p chain ih =>
    obtain ⟨c, output⟩ := p
    have hrest := ih (s.dir.join output)
    refine ⟨?_, fun i h => ?_, ?_, fun i h => ?_⟩
    · rw [invocations, List.map_cons, List.map_cons]
      exact congrArg _ hrest.stages
    · cases h
      rfl
    · exact List.isChain_cons.2 ⟨fun j hj => hrest.first j hj, hrest.next⟩
    · rcases List.mem_cons.1 h with rfl | h
      · exact ⟨rfl, rfl⟩
      · exact hrest.setting i h

/-- The stages of the plan were called in order, up to the first one that failed. -/
def Stopped (before after : List (Invocation × Bool)) (plan : List Invocation) : Prop :=
  ∃ ran, ran <+: plan ∧ (after = before ++ ran.map (·, true) ∨
    ∃ i, ran ++ [i] <+: plan ∧ after = before ++ ran.map (·, true) ++ [(i, false)])

theorem stopped_nil (before : List (Invocation × Bool)) (plan : List Invocation) :
    Stopped before before plan :=
  ⟨[], List.nil_prefix, .inl (by simp)⟩

theorem Stopped.cons {before after : List (Invocation × Bool)} {plan : List Invocation}
    {i : Invocation} (h : Stopped (before ++ [(i, true)]) after plan) :
    Stopped before after (i :: plan) := by
  obtain ⟨ran, hran, hafter⟩ := h
  refine ⟨i :: ran, List.cons_prefix_cons.2 ⟨rfl, hran⟩, ?_⟩
  rcases hafter with hafter | ⟨j, hj, hafter⟩
  · exact .inl (by simpa using hafter)
  · exact .inr ⟨j, List.cons_prefix_cons.2 ⟨rfl, hj⟩, by simpa using hafter⟩

/-- A file that no options document of a stage in this directory replaces. -/
def Spared (dir : Location) (here : Location) (input : Path) : Prop :=
  ∀ s : Stage, placeOf here input ≠ dir ++ [s.dirName, Workspace.stageConf s]

/-! ### One stage -/

section
variable {registry : Registry (Runner σ)} {s : Setting} {p : ConfiguredStage × String}
  {i : Invocation} {dir : Location} {world : World σ}

structure StageRun (notes : σ → List (Invocation × Bool))
    (f : Stage → ByteArray → ByteArray → Option ByteArray) (dir : Location)
    (p : ConfiguredStage × String) (i : Invocation) (world : World σ)
    (ending : Outcome StageError Unit × World σ) : Prop where
  touches : Touches (Made dir p) world.files ending.2.files
  called : ending.1.isDone = true → notes ending.2.others = notes world.others ++ [(i, true)]
  computed : ending.1.isDone = true → ∃ content output,
    (Spared dir world.files.here i.input → world.files.Holds i.input content) ∧
      f i.stage i.conf.pretty.toUTF8 content = some output ∧ ending.2.files.Holds i.output output
  undone : ending.1.isDone = false → notes ending.2.others = notes world.others ∨
    notes ending.2.others = notes world.others ++ [(i, false)]

theorem placeOf_output (sited : Sited s p i) (isOutput : IsOutput p.2)
    (directory : DirectoryAt world.files s.dir dir) :
    placeOf world.files.here i.output = dir ++ [p.2] := by
  rw [sited.output]
  exact (locate_eq_placeOf (directory.locate_join isOutput.isName isOutput.fits)).symm

/-- The runner of a stage, called in the directory of its chain. -/
theorem stageRun_of_prepared {u : World σ} {made : FileTree} {r : Runner σ} (sited : Sited s p i)
    (isOutput : IsOutput p.2) (directory : DirectoryAt world.files s.dir dir)
    (computes : Computes notes f r) (prepared : Prepared i world u made) :
    StageRun notes f dir p i world ((r i >>= fun _ => checkOutput i) u) := by
  have hothers : u.others = world.others := by rw [prepared.world]; rfl
  have hhere := prepared.confined.here
  have houtput := placeOf_output sited isOutput directory
  have htouches : Touches (Made dir p) world.files (r i u).2.files := by
    have hcalled := computes.confined i u
    rw [hhere, houtput] at hcalled
    refine ((Prepared.touches_work sited directory prepared).mono fun loc hloc => .inr ?_).trans
      (hcalled.mono fun loc hloc => .inl hloc)
    rwa [← sited.stage]
  cases hdone : (r i u).1.isDone with
  | false =>
    obtain ⟨hundone, hworld⟩ := bind_undone hdone fun _ => checkOutput i
    refine ⟨by rw [hworld]; exact htouches,
      fun h => (Bool.false_ne_true (hundone.symm.trans h)).elim,
      fun h => (Bool.false_ne_true (hundone.symm.trans h)).elim, fun _ => .inr ?_⟩
    rw [hworld, computes.noted, hothers, hdone]
  | true =>
    obtain ⟨_, hrun⟩ := eq_of_isDone hdone
    obtain ⟨conf, content, output, hconf, hinput, hvalue, hresult⟩ := computes.done i u hdone
    have hcheck : checkOutput i (r i u).2 = (.done (), (r i u).2) :=
      checkOutput_done ⟨output, hresult⟩
    rw [bind_of_done hrun, hcheck]
    refine ⟨htouches, fun _ => ?_, fun _ => ⟨content, output, fun spared => ?_, ?_, ?_⟩,
      fun h => by cases h⟩
    · rw [computes.noted, hothers, hdone]
    · have hplace : placeOf world.files.here i.input ≠ placeOf world.files.here i.confPath := by
        rw [placeOf_confPath sited directory]
        exact spared i.stage
      have hholds := holds_of_read hinput
      rw [Holds, hhere] at hholds
      exact (prepared.confined.file_iff hplace content).1 hholds
    · rw [prepared.read_conf] at hconf
      cases hconf
      exact hvalue
    · exact holds_of_read hresult

theorem executeStage_run (computes : ∀ s r, registry s = some r → Computes notes f r)
    (sited : Sited s p i) (isOutput : IsOutput p.2)
    (directory : DirectoryAt world.files s.dir dir) :
    StageRun notes f dir p i world (executeStage registry i world) := by
  rcases executeStage_cases registry i world with
    ⟨r, u, made, registered, prepared, heq⟩ | ⟨e, files, heq, hfiles⟩
  · rw [heq]
    exact stageRun_of_prepared sited isOutput directory (computes _ r registered) prepared
  · rw [heq]
    refine ⟨?_, fun h => (by cases h), fun h => (by cases h), fun _ => .inl rfl⟩
    rcases hfiles with rfl | rfl
    · exact .refl _ _
    · have hmade := directory.touches_makeDirs (isName_dirName i.stage) (fits_dirName i.stage)
      rw [← sited.workDir] at hmade
      refine hmade.mono fun loc hloc => .inr ?_
      rw [hloc, sited.stage]

end

/-! ### Chains -/

section
variable {registry : Registry (Runner σ)} {s : Setting} {dir : Location}
  {chain : List (ConfiguredStage × String)}

structure ChainRun (notes : σ → List (Invocation × Bool))
    (f : Stage → ByteArray → ByteArray → Option ByteArray) (s : Setting) (dir : Location)
    (chain : List (ConfiguredStage × String)) (input : Path) (world : World σ)
    (ending : Outcome StageError Path × World σ) : Prop where
  touches : Touches (fun loc => ∃ p ∈ chain, Made dir p loc) world.files ending.2.files
  last : ∀ last, ending.1 = .done last →
    last = input ∧ chain = [] ∨ ∃ p ∈ chain, last = s.dir.join p.2
  called : ending.1.isDone = true → notes ending.2.others =
    notes world.others ++ (invocations s chain input).map (·, true)
  composed : ∀ last out, ending.1 = .done last → Spared dir world.files.here input →
    ending.2.files.Holds last out → ∃ content, world.files.Holds input content ∧
      compose f (invocations s chain input) content = some out
  undone : ending.1.isDone = false →
    Stopped (notes world.others) (notes ending.2.others) (invocations s chain input)

theorem spared_output {name : String} {here : Location} {output : Path}
    (h : placeOf here output = dir ++ [name]) : Spared dir here output := by
  intro stage heq
  rw [h] at heq
  have hlength := congrArg List.length heq
  simp at hlength

/-- A stage that is done, and the rest of the chain behind it. -/
theorem ChainRun.cons {c : ConfiguredStage} {output : String} {input : Path}
    {world first : World σ} {ending : Outcome StageError Path × World σ}
    (isOutput : IsOutput output) (directory : DirectoryAt world.files s.dir dir)
    (stage : StageRun notes f dir (c, output) (s.invocation c input output) world (.done (), first))
    (rest : ChainRun notes f s dir chain (s.dir.join output) first ending) :
    ChainRun notes f s dir ((c, output) :: chain) input world ending := by
  have hcalled := stage.called rfl
  refine ⟨?_, fun last hlast => ?_, fun hdone => ?_, fun last out hlast spared hout => ?_,
    fun hundone => ?_⟩
  · refine (stage.touches.mono fun loc hloc => ?_).trans (rest.touches.mono fun loc hloc => ?_)
    · exact ⟨_, List.mem_cons_self, hloc⟩
    · obtain ⟨q, hq, hmade⟩ := hloc
      exact ⟨q, List.mem_cons_of_mem _ hq, hmade⟩
  · rcases rest.last last hlast with ⟨rfl, _⟩ | ⟨q, hq, hlast⟩
    · exact .inr ⟨_, List.mem_cons_self, rfl⟩
    · exact .inr ⟨q, List.mem_cons_of_mem _ hq, hlast⟩
  · rw [rest.called hdone, hcalled, invocations, List.map_cons, List.append_assoc]
    rfl
  · obtain ⟨content, result, hcontent, hvalue, hresult⟩ := stage.computed rfl
    have hplace := placeOf_output (p := (c, output)) (i := s.invocation c input output)
      ⟨rfl, rfl, rfl⟩ isOutput (stage.touches.directoryAt directory)
    obtain ⟨found, hfound, hcompose⟩ := rest.composed last out hlast (spared_output hplace) hout
    -- The rest starts from what the first stage has written.
    have hsame : found = result := by
      have heq := hfound.symm.trans hresult
      cases heq
      rfl
    subst hsame
    refine ⟨content, hcontent spared, ?_⟩
    rw [invocations, compose, hvalue]
    exact hcompose
  · have hstopped := rest.undone hundone
    rw [hcalled] at hstopped
    exact hstopped.cons

theorem runChain_run (computes : ∀ s r, registry s = some r → Computes notes f r)
    (outputs : ∀ p ∈ chain, IsOutput p.2) (world : World σ) (input : Path)
    (directory : DirectoryAt world.files s.dir dir) :
    ChainRun notes f s dir chain input world (runChain registry s chain input world) := by
  induction chain generalizing world input with
  | nil =>
    refine ⟨.refl _ _, fun last hlast => ?_, fun _ => ?_, fun last out hlast _ hout => ?_,
      fun h => by cases h⟩
    · cases hlast
      exact .inl ⟨rfl, rfl⟩
    · exact (List.append_nil _).symm
    · cases hlast
      exact ⟨out, hout, rfl⟩
  | cons p chain ih =>
    obtain ⟨c, output⟩ := p
    have houtput := outputs _ List.mem_cons_self
    have hstage := executeStage_run (p := (c, output)) (i := s.invocation c input output) computes
      ⟨rfl, rfl, rfl⟩ houtput directory
    rw [runChain]
    cases hdone : (executeStage registry (s.invocation c input output) world).1.isDone with
    | true =>
      obtain ⟨_, heq⟩ := eq_of_isDone hdone
      rw [heq] at hstage
      rw [bind_of_done heq]
      exact .cons houtput directory hstage (ih (fun q hq => outputs q (List.mem_cons_of_mem _ hq))
        _ _ (hstage.touches.directoryAt directory))
    | false =>
      obtain ⟨hundone, hworld⟩ := bind_undone hdone
        fun _ => runChain registry s chain (s.invocation c input output).output
      refine ⟨?_, fun last hlast => (ne_done hundone last hlast).elim,
        fun h => (Bool.false_ne_true (hundone.symm.trans h)).elim,
        fun last _ hlast => (ne_done hundone last hlast).elim, fun _ => ?_⟩
      · rw [hworld]
        exact hstage.touches.mono fun loc hloc => ⟨_, List.mem_cons_self, hloc⟩
      · rw [hworld]
        rcases hstage.undone hdone with hnotes | hnotes
        · rw [hnotes]
          exact stopped_nil _ _
        · exact ⟨[], List.nil_prefix, .inr ⟨_, List.cons_prefix_cons.2 ⟨rfl, List.nil_prefix⟩,
            by simpa using hnotes⟩⟩

end

end Pipeline
end TaskGen
