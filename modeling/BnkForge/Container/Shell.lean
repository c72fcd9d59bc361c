import BnkForge.Container.Phase

/-!
# No shell

`_validate_artifact_step` refuses a shell as the first element of an argv, before the engine puts the
inputs in. What the engine calls is safe exactly when no input makes a shell of a first element with
an input token (`argvSafe_iff`).
-/

namespace BnkForge.Container

open Python ExceptResult

/-! ### Texts without input tokens -/

private theorem renderFrom_eq_self {resolve : List Char → Except EngineError (List Char)}
    {cs : List Char} (h : tokensFrom 0 cs = []) : renderFrom resolve 0 cs = .ok cs := by
  induction cs with
  | nil => rfl
  | cons c cs ih =>
    rw [tokensFrom] at h
    rw [renderFrom]
    split at h
    · cases h
    · next hmatch =>
      have hrest := ih h
      simp only [hrest]
      rfl

section

variable {repr : Value → String}

theorem renderStr_eq_self {vars : List (String × Value)} {text : String} (h : tokensOf text = []) :
    renderStr repr vars text = .ok text := by
  rw [renderStr, renderFrom_eq_self h]
  exact congrArg Except.ok (String.ofList_toList)

theorem renderArgs_cons {vars : List (String × Value)} {first : String} {rest : List Value}
    {args : List String} (h : renderArgs repr vars (.str first :: rest) = .ok args) :
    ∃ rendered args', renderStr repr vars first = .ok rendered ∧ args = rendered :: args' := by
  rw [renderArgs] at h
  obtain ⟨rendered, hrendered, h⟩ := bind_eq_ok.mp h
  obtain ⟨args', -, h⟩ := bind_eq_ok.mp h
  exact ⟨rendered, args', hrendered, (Except.ok.inj h).symm⟩

theorem args_of_prepareStep {config : EngineConfig} {ctx : ModuleContext} {shared : Shared}
    {index : Nat} {step : Value} {spec : StepSpec} {policy : Nat × Nat}
    (h : prepareStep repr config ctx shared index step = .ok (spec, policy)) :
    renderArgs repr ctx.vars (elements (step.get "args")) = .ok spec.args := by
  unfold prepareStep at h
  simp only [bind_eq_ok] at h
  obtain ⟨args, hargs, env, -, timeout, -, retry, -, h⟩ := h
  cases h
  exact hargs

end

/-! ### The steps that are reached -/

section

variable (repr : Value → String) (config : EngineConfig) (ctx : ModuleContext)

/-- A phase can get past the step `q` on the way to `p`: its gate is false, it can be called, or its
marker is in the workspace, unless that is also the marker that would let `p` be passed over. -/
def GetsPast (shared : Shared) (p q : Nat × Value) : Prop :=
  stepEnabled repr ctx.vars q.2 = .ok false ∨
    stepEnabled repr ctx.vars q.2 = .ok true ∧
      ((∃ call, prepareStep repr config ctx shared q.1 q.2 = .ok call) ∨
        runsOnce q.2 = true ∧ ¬(runsOnce p.2 = true ∧ markerOf repr q = markerOf repr p))

/-- The step `p` of a phase can be called, and the phase can get there. -/
def Reached (steps : List (Nat × Value)) (p : Nat × Value) : Prop :=
  ∃ shared, resolveShared repr ctx = .ok shared ∧
    stepEnabled repr ctx.vars p.2 = .ok true ∧
    (∃ call, prepareStep repr config ctx shared p.1 p.2 = .ok call) ∧
    ∃ before after, steps = before ++ p :: after ∧ ∀ q ∈ before, GetsPast repr config ctx shared p q

def TemplatesSafe (op : Operation) : Prop :=
  ∀ p first rest rendered,
    Reached repr config (contextOf ctx op) (stepsOf ctx.packManifest op) p →
    elements (p.2.get "args") = .str first :: rest → tokensOf first ≠ [] →
    renderStr repr (contextOf ctx op).vars first = .ok rendered → folded rendered ∉ stepShellTokens

/-- Whatever the engine meets, each argv that it hands to the runner is that of a step of the
operation which passed the validation, with the inputs put in, and does not invoke a shell. -/
def ArgvSafe (op : Operation) : Prop :=
  ∀ around, ∀ spec ∈ (runOperation repr config around ctx op).1.calls,
    (∃ step ∈ elements (stepSetOf ctx.packManifest op), (∃ path, validateStep path step = .ok ()) ∧
      renderArgs repr (contextOf ctx op).vars (elements (step.get "args")) = .ok spec.args) ∧
    folded (spec.args.headD "") ∉ stepShellTokens

end

section

variable {repr : Value → String} {config : EngineConfig} {ctx : ModuleContext} {op : Operation}
variable {shared : Shared} {steps : List (Nat × Value)} {p : Nat × Value}

/-! ### What is called is reached -/

theorem GetsPast.of_passes {markers : List String} {q : Nat × Value}
    (hskip : ¬Skipped repr markers p) (h : Passes repr config ctx shared markers q) :
    GetsPast repr config ctx shared p q := by
  refine h.imp_right fun ⟨henabled, hcall⟩ ↦ ⟨henabled, hcall.symm.imp_right ?_⟩
  rintro ⟨honce, hmarker⟩
  refine ⟨honce, ?_⟩
  rintro ⟨hpOnce, heq⟩
  exact hskip ⟨hpOnce, heq ▸ hmarker⟩

theorem Passes.mono {markers markers' : List String} (hsub : markers ⊆ markers')
    (h : Passes repr config ctx shared markers p) : Passes repr config ctx shared markers' p :=
  h.imp_right fun ⟨henabled, hcall⟩ ↦ ⟨henabled, hcall.imp_left fun hskip ↦ ⟨hskip.1, hsub hskip.2⟩⟩

theorem Passes.of_stepRun {around : Surroundings} {s s' : PhaseState}
    (h : StepRun repr config around ctx shared p s s' .next) :
    Passes repr config ctx shared s.markers p := by
  cases h with
  | gated henabled => exact .inl henabled
  | skippedOnce henabled hskip => exact .inr ⟨henabled, .inl hskip⟩
  | completed henabled _ hprepare => exact .inr ⟨henabled, .inr ⟨_, hprepare⟩⟩

def Called (repr : Value → String) (config : EngineConfig) (ctx : ModuleContext) (shared : Shared)
    (steps : List (Nat × Value)) (spec : StepSpec) : Prop :=
  ∃ p ∈ steps, Reached repr config ctx steps p ∧
    ∃ policy, prepareStep repr config ctx shared p.1 p.2 = .ok (spec, policy)

theorem StepRun.called {around : Surroundings} {s s' : PhaseState} {outcome : Outcome}
    {before after : List (Nat × Value)} (hshared : resolveShared repr ctx = .ok shared)
    (hsteps : steps = before ++ p :: after)
    (hbefore : ∀ q ∈ before, Passes repr config ctx shared s.markers q)
    (hcalls : ∀ spec ∈ s.calls, Called repr config ctx shared steps spec)
    (h : StepRun repr config around ctx shared p s s' outcome) :
    ∀ spec ∈ s'.calls, Called repr config ctx shared steps spec := by
  have hmem : p ∈ steps := by simp [hsteps]
  have hnew {spec : StepSpec} {policy : Nat × Nat} {s' : PhaseState}
      (henabled : stepEnabled repr ctx.vars p.2 = .ok true) (hskip : ¬Skipped repr s.markers p)
      (hprepare : prepareStep repr config ctx shared p.1 p.2 = .ok (spec, policy))
      (hattempted : Attempted spec s s') :
      ∀ spec ∈ s'.calls, Called repr config ctx shared steps spec := by
    intro spec' hspec'
    obtain ⟨n, hn⟩ := hattempted.calls
    rw [hn] at hspec'
    obtain hold | hspec' := List.mem_append.mp hspec'
    · exact hcalls spec' hold
    · obtain rfl := List.eq_of_mem_replicate hspec'
      refine ⟨p, hmem, ?_, policy, hprepare⟩
      exact ⟨shared, hshared, henabled, ⟨_, hprepare⟩, before, after, hsteps,
        fun q hq ↦ .of_passes hskip (hbefore q hq)⟩
  cases h with
  | overflow henabled hskip hprepare hattempted => exact hnew henabled hskip hprepare hattempted
  | completed henabled hskip hprepare hattempted =>
    have hcalled := hnew henabled hskip hprepare hattempted
    exact hcalled
  | failed henabled hskip hprepare hattempted =>
    have hcalled := hnew henabled hskip hprepare hattempted
    exact hcalled
  | _ => exact hcalls

theorem called_of_mem_calls {around : Surroundings}
    (hshared : resolveShared repr ctx = .ok shared) {markers : List String} {spec : StepSpec}
    (h : spec ∈ (runSteps repr config around ctx shared steps { markers := markers }).1.calls) :
    Called repr config ctx shared steps spec := by
  rcases hrun : runSteps repr config around ctx shared steps { markers := markers } with ⟨s', outcome⟩
  rw [hrun] at h
  have hrule := runSteps_rule
    (motive := fun before s ↦ (∀ q ∈ before, Passes repr config ctx shared s.markers q) ∧
      ∀ spec ∈ s.calls, Called repr config ctx shared steps spec) ?_ (by simp) hrun
  · obtain ⟨-, -, hcalls⟩ | ⟨before, p, after, s₁, hsteps, ⟨hbefore, hcalls⟩, -, hrun⟩ := hrule
    · exact hcalls spec h
    · exact hrun.called hshared hsteps hbefore hcalls spec h
  · rintro done p after s s' hsteps ⟨hdone, hcalls⟩ hrun
    refine ⟨fun q hq ↦ ?_, hrun.called hshared hsteps hdone hcalls⟩
    obtain hq | hq := List.mem_append.mp hq
    · exact (hdone q hq).mono hrun.markers_subset
    · obtain rfl := List.mem_singleton.mp hq
      exact (Passes.of_stepRun hrun).mono hrun.markers_subset

/-! ### What is reached is called -/

def obliging (markers : List String) : Surroundings where
  runner _ _ := { result := some { success := true } }
  markers := markers
  writable _ := false
  outputsFile _ := none

variable (repr) in
/-- The markers of the steps before `p` that are not the one of `p`. -/
def markersBefore (p : Nat × Value) (before : List (Nat × Value)) : List String :=
  (before.map (markerOf repr)).filter fun marker ↦ !(runsOnce p.2 && marker == markerOf repr p)

theorem GetsPast.passes {q : Nat × Value} {before : List (Nat × Value)} (hq : q ∈ before)
    (h : GetsPast repr config ctx shared p q) :
    Passes repr config ctx shared (markersBefore repr p before) q := by
  refine h.imp_right fun ⟨henabled, hcall⟩ ↦ ⟨henabled, hcall.symm.imp_left ?_⟩
  rintro ⟨honce, hmarker⟩
  refine ⟨honce, List.mem_filter.mpr ⟨List.mem_map_of_mem hq, ?_⟩⟩
  simpa [imp_iff_not_or] using hmarker

theorem not_skipped_markersBefore (before : List (Nat × Value)) :
    ¬Skipped repr (markersBefore repr p before) p := by
  rintro ⟨honce, hmarker⟩
  simp [markersBefore, honce] at hmarker

theorem Reached.called (hargv : ∀ p ∈ steps, ArgvStep p.2) (h : Reached repr config ctx steps p) :
    ∃ shared spec policy markers, resolveShared repr ctx = .ok shared ∧
      prepareStep repr config ctx shared p.1 p.2 = .ok (spec, policy) ∧
      spec ∈ (runSteps repr config (obliging markers) ctx shared steps
        { markers := (obliging markers).markers }).1.calls := by
  obtain ⟨shared, hshared, henabled, ⟨⟨spec, policy⟩, hprepare⟩, before, after, rfl, hbefore⟩ := h
  let markers := markersBefore repr p before
  refine ⟨shared, spec, policy, markers, hshared, hprepare, ?_⟩
  obtain ⟨n, hn⟩ := goesThrough_of_passes
    (fun q hq ↦ hargv q (List.mem_append_left _ hq)) (fun q hq ↦ (hbefore q hq).passes hq)
  obtain ⟨s₁, hrun, hs₁, -⟩ := hn (obliging markers) { markers := markers } (fun _ ↦ rfl) rfl
    (fun _ _ _ ↦ rfl)
  have hskip : ¬Skipped repr s₁.markers p := by
    rw [hs₁]
    exact not_skipped_markersBefore before
  obtain ⟨s₂, hone, -, hcalls⟩ := runOne_succeeds (hargv p (by simp)) henabled hprepare
    (obliging markers) s₁ hskip rfl rfl
  rw [runSteps_append, show (obliging markers).markers = markers from rfl, hrun]
  dsimp only
  rw [runSteps, hone]
  dsimp only
  exact runSteps_calls_subset s₂ (by simp [hcalls])

/-! ### Safe and unsafe inputs -/

theorem folded_first_of_untemplated (h : ArgvStep p.2) {args : List String} {first : String}
    {rest : List Value} (hargs : elements (p.2.get "args") = .str first :: rest)
    (hrender : renderArgs repr ctx.vars (elements (p.2.get "args")) = .ok args)
    (htokens : tokensOf first = []) : folded (args.headD "") ∉ stepShellTokens := by
  obtain ⟨first', rest', hlist, hshell⟩ := h.argv
  rw [hlist] at hargs
  obtain ⟨rfl, -⟩ : first' = first ∧ _ := by simpa [elements] using hargs
  rw [hlist] at hrender
  obtain ⟨rendered, args', hrendered, rfl⟩ := renderArgs_cons hrender
  rw [renderStr_eq_self htokens] at hrendered
  obtain rfl := Except.ok.inj hrendered
  exact hshell

/-- Each argv that the engine hands to the runner comes from a step that passed the validation and
invokes no shell, exactly when no first element with an input token becomes a shell. -/
theorem argvSafe_iff {allowlist : Option (String → Bool)} {known : Option (List String)}
    {manifest : Value} {references : References}
    (hvalid : validateArtifactManifest repr allowlist known manifest =
      .ok (ctx.packManifest, references))
    (hkind : manifest.get "kind" = .str "container_image") :
    ArgvSafe repr config ctx op ↔ TemplatesSafe repr config ctx op := by
  have haccepted := accepted_of_validate hvalid hkind
  have hargv : ∀ p ∈ stepsOf ctx.packManifest op, ArgvStep p.2 := fun p hp ↦ haccepted.argvStep hp
  constructor
  · intro hsafe p first rest rendered hreached hargs htokens hrendered
    obtain ⟨shared, spec, policy, markers, hshared, hprepare, hmem⟩ := hreached.called hargv
    rw [← haccepted.calls_runOperation op (obliging markers) hshared] at hmem
    obtain ⟨-, hshell⟩ := hsafe _ spec hmem
    have hrender := args_of_prepareStep hprepare
    rw [hargs] at hrender
    obtain ⟨rendered', args', hrendered', heq⟩ := renderArgs_cons hrender
    rw [hrendered] at hrendered'
    obtain rfl := Except.ok.inj hrendered'
    rwa [heq] at hshell
  · intro hsafe around spec hmem
    cases hshared : resolveShared repr (contextOf ctx op) with
    | error e =>
      rw [haccepted.calls_runOperation_error op around hshared] at hmem
      cases hmem
    | ok shared =>
      rw [haccepted.calls_runOperation op around hshared] at hmem
      obtain ⟨p, hp, hreached, policy, hprepare⟩ := called_of_mem_calls hshared hmem
      have hrender := args_of_prepareStep hprepare
      refine ⟨⟨p.2, snd_mem_of_mem_indexed hp, haccepted.validateStep hp, hrender⟩, ?_⟩
      obtain ⟨first, rest, hlist, -⟩ := (hargv p hp).argv
      have hargs : elements (p.2.get "args") = .str first :: List.map .str rest := by rw [hlist]; rfl
      by_cases htokens : tokensOf first = []
      · exact folded_first_of_untemplated (hargv p hp) hargs hrender htokens
      · rw [hargs] at hrender
        obtain ⟨rendered, args', hrendered, heq⟩ := renderArgs_cons hrender
        rw [heq]
        exact hsafe p first _ rendered hreached hargs htokens hrendered

end

def toolManifest : Value :=
  .dict [("schema_version", .int 1), ("name", .str "tool"), ("version", .str "1.0.0"),
    ("kind", .str "container_image"),
    ("container_image", .dict [("registry_host", .str "ghcr.io"), ("repository", .str "org/tool"),
      ("digest", .str ("sha256:" ++ String.ofList (List.replicate 64 '0')))]),
    ("steps", .dict [("apply", .list [.dict [("name", .str "run"),
      ("args", .list [.str "\x7b\x7binputs.tool\x7d\x7d", .str "-c", .str "id"])]])]),
    ("execution", .dict [("engine", .str "container")])]

def toolContext (tool : String) : ModuleContext where
  moduleId := 1
  projectId := 1
  vars := [("tool", .str tool)]
  credentialsEnv := []
  packManifest := toolManifest

theorem toolManifest_valid : validateArtifactManifest (fun _ ↦ "") none none toolManifest =
    .ok (toolManifest, ⟨"tool@1.0.0", ["tool@1.0.0"], []⟩) := by
  rfl

/-- The theorem where the input names a program that is no shell. -/
theorem argvSafe_tool : ArgvSafe (fun _ ↦ "") {} (toolContext "helm") .apply := by
  refine (argvSafe_iff toolManifest_valid rfl).mpr ?_
  rintro p first rest rendered ⟨-, -, -, -, before, after, hsteps, -⟩ hargs - hrendered
  have hp : p ∈ stepsOf (toolContext "helm").packManifest .apply := by simp [hsteps]
  obtain rfl := List.mem_singleton.mp hp
  obtain rfl : "\x7b\x7binputs.tool\x7d\x7d" = first := Value.str.inj (List.cons.inj hargs).1
  have htool : renderStr (fun _ ↦ "") [("tool", .str "helm")] "\x7b\x7binputs.tool\x7d\x7d" =
      .ok "helm" := by decide +kernel
  obtain rfl := Except.ok.inj (htool.symm.trans hrendered)
  decide +kernel

/-- With `sh` for the input the validated step runs a shell. -/
theorem templated_shell_called :
    validateArtifactManifest (fun _ ↦ "") none none toolManifest =
        .ok ((toolContext "sh").packManifest, ⟨"tool@1.0.0", ["tool@1.0.0"], []⟩) ∧
      toolManifest.get "kind" = .str "container_image" ∧
      (runOperation (fun _ ↦ "") {} (obliging []) (toolContext "sh") .apply).1.calls.map
        StepSpec.args = [["sh", "-c", "id"]] ∧
      ¬ArgvSafe (fun _ ↦ "") {} (toolContext "sh") .apply := by
  have hcalls : (runOperation (fun _ ↦ "") {} (obliging []) (toolContext "sh") .apply).1.calls.map
      StepSpec.args = [["sh", "-c", "id"]] := by decide +kernel
  refine ⟨toolManifest_valid, rfl, hcalls, fun hsafe ↦ ?_⟩
  obtain ⟨spec, hspec, hargs⟩ := List.mem_map.mp (hcalls ▸ List.mem_singleton_self ["sh", "-c", "id"])
  obtain ⟨-, hshell⟩ := hsafe _ spec hspec
  rw [hargs] at hshell
  exact hshell (by decide +kernel)

end BnkForge.Container
