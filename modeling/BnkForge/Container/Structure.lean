import BnkForge.Container.Phase

/-!
# Structural errors

The engine reads fields of a manifest that `validate_artifact_manifest` does not look at: the
repository of the image, the limits, and the environment, timeout and retry block of a step. An
operation of an accepted manifest is free of structural errors exactly when these fields have the
shape that the engine expects (`structurallySound_iff`).
-/

namespace BnkForge.Container

open Python ExceptResult List

/-! ### Inputs that are scalars -/

def ScalarTokens (vars : List (String × Value)) (text : String) : Prop :=
  ∀ key ∈ tokensOf text, (lookupInput key vars).isScalar = true

section

variable (repr : Value → String) (ctx : ModuleContext) (op : Operation)

/-- The inputs that an operation templates are scalars: in the environment of its home, and in the
gates, the arguments and the environments of its steps. -/
structure ScalarInputs : Prop where
  homeEnv : ∀ item ∈ ((ctx.packManifest.get "state").get "home_env").items,
    ScalarTokens (contextOf ctx op).vars (item.2.toText repr)
  gates : ∀ p ∈ stepsOf ctx.packManifest op, ∀ text, p.2.get "when" = .str text →
    ScalarTokens (contextOf ctx op).vars text
  args : ∀ p ∈ stepsOf ctx.packManifest op, ∀ text, .str text ∈ elements (p.2.get "args") →
    ScalarTokens (contextOf ctx op).vars text
  env : ∀ p ∈ stepsOf ctx.packManifest op, ∀ item ∈ (p.2.get "env").items,
    ScalarTokens (contextOf ctx op).vars (item.2.toText repr)

/-! ### The fields that the validation leaves open -/

/-- The host and the repository of the image are not made of blanks and slashes alone, and the
limit on processes is a number. -/
structure SharedFields (manifest : Value) : Prop where
  host : ∀ host, (manifest.get "container_image").get "registry_host" = .str host →
    (strip host.toList).rdropWhile (· == '/') ≠ []
  repository : ∃ repository, (manifest.get "container_image").get "repository" = .str repository ∧
    stripSlashes (strip repository.toList) ≠ []
  pids : ∀ e, (((manifest.get "execution").get "limits").get "pids").isNone = false →
    (((manifest.get "execution").get "limits").get "pids").toInt ≠ .error e

/-- The fields of a step that the engine reads and the validation does not. -/
structure StepFields (step : Value) : Prop where
  env : (step.get "env").truthy = true → (step.get "env").isDict = true
  timeout : ∀ value e, step.items.lookup "timeout_seconds" = some value → value.toInt ≠ .error e
  maxAttempts : ((step.get "retry").get "max_attempts").toInt ≠ .error .overflowError
  backoff : ((step.get "retry").get "backoff_seconds").toInt ≠ .error .overflowError
  /-- A step that may be attempted again does not wait longer than the clock counts. -/
  sleep : ∀ n k, ((step.get "retry").get "max_attempts").toInt = .ok n → 1 < n →
    ((step.get "retry").get "backoff_seconds").toInt = .ok k → k ≤ maxSleepSeconds

/-- The fields that an operation reads have the shape that the engine expects. -/
def FieldsSound : Prop :=
  SharedFields ctx.packManifest ∧ ∀ p ∈ stepsOf ctx.packManifest op,
    stepEnabled repr (contextOf ctx op).vars p.2 = .ok true → StepFields p.2

def StructurallySound (config : EngineConfig) : Prop :=
  ∀ around, ∃ result, (runOperation repr config around ctx op).2 = .ok result ∧
    ∀ failure, result.failure = some failure → ∃ message, failure = .stepFailed message

end

/-! ### Rendering -/

section

variable (repr : Value → String) {vars : List (String × Value)}

private theorem renderFrom_of_scalar {skip : Nat} {cs : List Char}
    (h : ∀ key ∈ tokensFrom skip cs, (lookupInput key vars).isScalar = true) :
    ∃ rendered, renderFrom (resolveInput repr vars) skip cs = .ok rendered := by
  induction cs generalizing skip with
  | nil => exact ⟨[], by cases skip <;> rfl⟩
  | cons c cs ih =>
    cases skip with
    | succ skip => exact ih h
    | zero =>
      rw [tokensFrom] at h
      rw [renderFrom]
      cases hmatch : matchToken (c :: cs) with
      | none =>
        simp only [hmatch] at h
        obtain ⟨rest, hrest⟩ := ih h
        exact ⟨c :: rest, by simp only [hrest]; rfl⟩
      | some token =>
        obtain ⟨key, length⟩ := token
        simp only [hmatch] at h
        obtain ⟨rest, hrest⟩ := ih fun k hk ↦ h k (mem_cons_of_mem _ hk)
        have hkey := h key mem_cons_self
        refine ⟨((lookupInput key vars).toText repr).toList ++ rest, ?_⟩
        simp only [resolveInput, hkey, hrest]
        rfl

theorem renderStr_of_scalar {text : String} (h : ScalarTokens vars text) :
    ∃ rendered, renderStr repr vars text = .ok rendered := by
  obtain ⟨rendered, hrendered⟩ := renderFrom_of_scalar repr h
  exact ⟨String.ofList rendered, by rw [renderStr, hrendered]; rfl⟩

theorem renderArgs_of_scalar {texts : List String} (h : ∀ text ∈ texts, ScalarTokens vars text) :
    ∃ args, renderArgs repr vars (texts.map .str) = .ok args := by
  induction texts with
  | nil => exact ⟨[], rfl⟩
  | cons text texts ih =>
    obtain ⟨args, hargs⟩ := ih fun t ht ↦ h t (mem_cons_of_mem _ ht)
    obtain ⟨rendered, hrendered⟩ := renderStr_of_scalar repr (h text mem_cons_self)
    exact ⟨rendered :: args, by rw [map_cons, renderArgs, hrendered, hargs]; rfl⟩

theorem renderItems_of_scalar {items : List (String × Value)}
    (h : ∀ item ∈ items, ScalarTokens vars (item.2.toText repr)) :
    ∃ rendered, renderItems repr vars items = .ok rendered := by
  induction items with
  | nil => exact ⟨[], rfl⟩
  | cons item items ih =>
    obtain ⟨key, value⟩ := item
    obtain ⟨rest, hrest⟩ := ih fun i hi ↦ h i (mem_cons_of_mem _ hi)
    obtain ⟨rendered, hrendered⟩ := renderStr_of_scalar repr (h _ mem_cons_self)
    exact ⟨(key, rendered) :: rest, by rw [renderItems, hrendered, hrest]; rfl⟩

theorem stepEnabled_of_scalar {step : Value}
    (h : ∀ text, step.get "when" = .str text → ScalarTokens vars text) :
    ∃ enabled, stepEnabled repr vars step = .ok enabled := by
  unfold stepEnabled
  split
  · exact ⟨_, rfl⟩
  · exact ⟨_, rfl⟩
  · next text htext =>
    obtain ⟨rendered, hrendered⟩ := renderStr_of_scalar repr (h text htext)
    exact ⟨_, by rw [hrendered]; rfl⟩
  · exact ⟨_, rfl⟩

end

/-! ### What the steps of a phase share -/

section

variable {manifest : Value}

private theorem textOrEmpty_str (text : String) : textOrEmpty (.str text) = .ok text.toList := by
  unfold textOrEmpty Value.truthy
  cases hempty : text.isEmpty with
  | true =>
    rw [String.isEmpty_iff] at hempty
    simp [hempty]
  | false => simp

private theorem textOrEmpty_of_not_str {value : Value} {text : List Char} (hstr : value.isStr = false)
    (h : textOrEmpty value = .ok text) : text = [] := by
  unfold textOrEmpty at h
  split at h
  · split at h
    · cases hstr
    · cases h
  · exact (Except.ok.inj h).symm

private theorem resolveImageDigest_ok_iff (h : Accepted manifest) :
    (∃ digest, resolveImageDigest manifest = .ok digest) ↔
      (∀ host, (manifest.get "container_image").get "registry_host" = .str host →
        (strip host.toList).rdropWhile (· == '/') ≠ []) ∧
      ∃ repository, (manifest.get "container_image").get "repository" = .str repository ∧
        stripSlashes (strip repository.toList) ≠ [] := by
  obtain ⟨host, hhost, -⟩ := h.host
  obtain ⟨digest, hdigest, hdigestText⟩ := h.digest
  unfold resolveImageDigest
  rw [if_neg (by simp [h.block])]
  simp only [hhost, hdigest, textOrEmpty_str]
  constructor
  · rintro ⟨image, himage⟩
    simp only [bind_eq_ok] at himage
    obtain ⟨_, heq, repo, hrepo, _, heq', himage⟩ := himage
    cases heq
    cases heq'
    split at himage
    · cases himage
    · next hparts =>
      simp only [Bool.or_eq_true, List.isEmpty_iff, not_or] at hparts
      refine ⟨fun _ h ↦ Value.str.inj h ▸ hparts.1.1, ?_⟩
      cases hvalue : (manifest.get "container_image").get "repository" with
      | str repository =>
        rw [hvalue, textOrEmpty_str] at hrepo
        cases hrepo
        exact ⟨repository, rfl, hparts.1.2⟩
      | _ =>
        rw [hvalue] at hrepo
        rw [textOrEmpty_of_not_str rfl hrepo] at hparts
        exact absurd rfl hparts.1.2
  · rintro ⟨hhostText, repository, hrepository, hrepositoryText⟩
    have hhostText := hhostText host rfl
    simp only [hrepository, textOrEmpty_str]
    refine ⟨_, if_neg ?_⟩
    simp only [Bool.or_eq_true, List.isEmpty_iff, not_or]
    exact ⟨⟨hhostText, hrepositoryText⟩, hdigestText⟩

private theorem resolveLimits_ok_iff (repr : Value → String) (manifest : Value) :
    (∃ limits, resolveLimits repr manifest = .ok limits) ↔
      ∀ e, (((manifest.get "execution").get "limits").get "pids").isNone = false →
        (((manifest.get "execution").get "limits").get "pids").toInt ≠ .error e := by
  unfold resolveLimits
  cases hnone : (((manifest.get "execution").get "limits").get "pids").isNone with
  | true =>
    refine ⟨fun _ _ h ↦ (nomatch h), fun _ ↦ ?_⟩
    simp only [hnone]
    exact ⟨_, rfl⟩
  | false =>
    cases hint : (((manifest.get "execution").get "limits").get "pids").toInt with
    | error e =>
      refine ⟨fun ⟨limits, hlimits⟩ ↦ ?_, fun h ↦ absurd rfl (h e rfl)⟩
      simp only [hnone, intOf, hint] at hlimits
      cases hlimits
    | ok n =>
      refine ⟨fun _ _ _ h ↦ (nomatch h), fun _ ↦ ?_⟩
      simp only [hnone, intOf, hint]
      exact ⟨_, rfl⟩

theorem resolveShared_ok_iff {repr : Value → String} {ctx : ModuleContext} {op : Operation}
    (h : Accepted ctx.packManifest) (hinputs : ScalarInputs repr ctx op) :
    (∃ shared, resolveShared repr (contextOf ctx op) = .ok shared) ↔
      SharedFields ctx.packManifest := by
  have hmanifest : (contextOf ctx op).packManifest = ctx.packManifest := by cases op <;> rfl
  have himage := resolveImageDigest_ok_iff h
  have hlimits := resolveLimits_ok_iff repr ctx.packManifest
  obtain ⟨homeEnv, hhomeEnv⟩ := renderItems_of_scalar repr hinputs.homeEnv
  unfold resolveShared buildHomeEnv
  rw [hmanifest]
  simp only [hhomeEnv]
  constructor
  · rintro ⟨shared, hshared⟩
    simp only [bind_eq_ok] at hshared
    obtain ⟨digest, hdigest, _, _, limits, hlimit, -⟩ := hshared
    obtain ⟨hhost, hrepository⟩ := himage.mp ⟨digest, hdigest⟩
    exact ⟨hhost, hrepository, hlimits.mp ⟨limits, hlimit⟩⟩
  · rintro ⟨hhost, hrepository, hpids⟩
    obtain ⟨digest, hdigest⟩ := himage.mpr ⟨hhost, hrepository⟩
    obtain ⟨limits, hlimit⟩ := hlimits.mpr hpids
    rw [hdigest, hlimit]
    exact ⟨_, rfl⟩

end

/-! ### The retry policy -/

def retryNumber (value : Value) (least : Int) : Except EngineError Nat :=
  match value.toInt with
  | .ok n => .ok (max least n).toNat
  | .error .overflowError => .error (.intError .overflowError)
  | .error _ => .ok least.toNat

theorem retryNumber_ok_iff {value : Value} {least : Int} :
    (∃ n, retryNumber value least = .ok n) ↔ value.toInt ≠ .error .overflowError := by
  unfold retryNumber
  cases value.toInt with
  | ok n => simp
  | error e => cases e <;> simp

theorem lt_retryNumber {value : Value} {least : Int} {n : Nat} (bound : Nat)
    (hbound : least ≤ bound) (h : retryNumber value least = .ok n) :
    bound < n ↔ ∃ m, value.toInt = .ok m ∧ (bound : Int) < m := by
  unfold retryNumber at h
  cases hint : value.toInt with
  | ok m =>
    rw [hint] at h
    cases h
    simp only [Except.ok.injEq, exists_eq_left']
    omega
  | error e =>
    rw [hint] at h
    cases e with
    | overflowError => cases h
    | _ =>
      cases h
      simp only [reduceCtorEq, false_and, exists_false, iff_false]
      omega

section

variable {step : Value}

theorem stepRetryPolicy_eq (step : Value) :
    stepRetryPolicy step = (do
      let maxAttempts ← retryNumber ((step.get "retry").get "max_attempts") 1
      let backoff ← retryNumber ((step.get "retry").get "backoff_seconds") 0
      .ok (maxAttempts, backoff)) := by
  unfold stepRetryPolicy
  cases hdict : (step.get "retry").isDict with
  | true => exact if_pos hdict
  | false =>
    rw [get_of_not_dict hdict, get_of_not_dict hdict]
    exact if_neg (by simp [hdict])

theorem stepRetryPolicy_ok_iff :
    (∃ policy, stepRetryPolicy step = .ok policy) ↔
      ((step.get "retry").get "max_attempts").toInt ≠ .error .overflowError ∧
      ((step.get "retry").get "backoff_seconds").toInt ≠ .error .overflowError := by
  rw [stepRetryPolicy_eq, ← retryNumber_ok_iff, ← retryNumber_ok_iff]
  constructor
  · rintro ⟨policy, h⟩
    simp only [bind_eq_ok] at h
    obtain ⟨n, hn, k, hk, -⟩ := h
    exact ⟨⟨n, hn⟩, k, hk⟩
  · rintro ⟨⟨n, hn⟩, k, hk⟩
    exact ⟨(n, k), by rw [hn, hk]; rfl⟩

theorem overflows_iff {maxAttempts backoff : Nat}
    (h : stepRetryPolicy step = .ok (maxAttempts, backoff)) :
    1 < maxAttempts ∧ maxSleepSeconds < backoff ↔
      ∃ n k, ((step.get "retry").get "max_attempts").toInt = .ok n ∧ 1 < n ∧
        ((step.get "retry").get "backoff_seconds").toInt = .ok k ∧ (maxSleepSeconds : Int) < k := by
  rw [stepRetryPolicy_eq] at h
  simp only [bind_eq_ok] at h
  obtain ⟨n, hn, k, hk, heq⟩ := h
  cases heq
  have hattempts := lt_retryNumber 1 (by decide) hn
  have hbackoff := lt_retryNumber maxSleepSeconds (by decide) hk
  rw [hattempts, hbackoff]
  constructor
  · rintro ⟨⟨n, hn, hlt⟩, k, hk, hmax⟩
    exact ⟨n, k, hn, hlt, hk, hmax⟩
  · rintro ⟨n, k, hn, hlt, hk, hmax⟩
    exact ⟨⟨n, hn, hlt⟩, k, hk, hmax⟩

end

/-! ### The call of a step -/

section

variable {repr : Value → String} {config : EngineConfig} {ctx : ModuleContext} {op : Operation}
variable {shared : Shared} {p : Nat × Value}

private theorem timeoutSeconds_ok_iff {step : Value} : (∃ timeout, timeoutSeconds step = .ok timeout) ↔
    ∀ value e, step.items.lookup "timeout_seconds" = some value → value.toInt ≠ .error e := by
  unfold timeoutSeconds
  cases step.items.lookup "timeout_seconds" with
  | none => simp
  | some value =>
    simp only [Option.some.injEq, forall_comm (α := IntError), forall_eq']
    unfold intOf
    cases value.toInt with
    | ok n => simp [Except.mapError]
    | error e => simp [Except.mapError]

private theorem renderEnv_ok_iff {env : Value} {vars : List (String × Value)}
    (h : ∀ item ∈ env.items, ScalarTokens vars (item.2.toText repr)) :
    (∃ rendered, renderEnv repr vars env = .ok rendered) ↔ (env.truthy = true → env.isDict = true) := by
  unfold renderEnv
  split
  · next htruthy =>
    cases env with
    | dict items =>
      obtain ⟨rendered, hrendered⟩ := renderItems_of_scalar repr h
      exact ⟨fun _ _ ↦ rfl, fun _ ↦ ⟨rendered, hrendered⟩⟩
    | _ => simp [htruthy, Value.isDict]
  · next htruthy => exact ⟨fun _ h ↦ absurd h htruthy, fun _ ↦ ⟨[], rfl⟩⟩

theorem prepareStep_ok_iff (h : ArgvStep p.2) (hp : p ∈ stepsOf ctx.packManifest op)
    (hinputs : ScalarInputs repr ctx op) :
    (∃ call, prepareStep repr config (contextOf ctx op) shared p.1 p.2 = .ok call) ↔
      ((p.2.get "env").truthy = true → (p.2.get "env").isDict = true) ∧
      (∀ value e, p.2.items.lookup "timeout_seconds" = some value → value.toInt ≠ .error e) ∧
      ∃ policy, stepRetryPolicy p.2 = .ok policy := by
  obtain ⟨first, rest, hlist, -⟩ := h.argv
  have hargs : elements (p.2.get "args") = List.map .str (first :: rest) := by rw [hlist]; rfl
  obtain ⟨args, hrendered⟩ : ∃ args, renderArgs repr (contextOf ctx op).vars
      (elements (p.2.get "args")) = .ok args := by
    rw [hargs]
    refine renderArgs_of_scalar repr fun text htext ↦ hinputs.args p hp text ?_
    rw [hargs]
    exact mem_map_of_mem htext
  rw [← renderEnv_ok_iff (hinputs.env p hp), ← timeoutSeconds_ok_iff]
  unfold prepareStep
  simp only [hrendered]
  constructor
  · rintro ⟨call, hcall⟩
    simp only [bind_eq_ok] at hcall
    obtain ⟨-, -, env, henv, timeout, htimeout, policy, hpolicy, -⟩ := hcall
    exact ⟨⟨env, henv⟩, ⟨timeout, htimeout⟩, policy, hpolicy⟩
  · rintro ⟨⟨env, henv⟩, ⟨timeout, htimeout⟩, policy, hpolicy⟩
    simp only [henv, htimeout, hpolicy]
    exact ⟨_, rfl⟩

theorem policy_of_prepareStep {spec : StepSpec} {policy : Nat × Nat}
    (h : prepareStep repr config ctx shared p.1 p.2 = .ok (spec, policy)) :
    stepRetryPolicy p.2 = .ok policy := by
  unfold prepareStep at h
  simp only [bind_eq_ok] at h
  obtain ⟨_, _, _, _, _, _, policy', hpolicy, h⟩ := h
  cases h
  exact hpolicy

theorem stepFields_iff (h : ArgvStep p.2) (hp : p ∈ stepsOf ctx.packManifest op)
    (hinputs : ScalarInputs repr ctx op) :
    StepFields p.2 ↔ ∃ spec maxAttempts backoff,
      prepareStep repr config (contextOf ctx op) shared p.1 p.2 = .ok (spec, maxAttempts, backoff) ∧
        ¬(1 < maxAttempts ∧ maxSleepSeconds < backoff) := by
  constructor
  · rintro ⟨henv, htimeout, hattempts, hbackoff, hsleep⟩
    obtain ⟨⟨spec, maxAttempts, backoff⟩, hcall⟩ := (prepareStep_ok_iff h hp hinputs).mpr
      ⟨henv, htimeout, stepRetryPolicy_ok_iff.mpr ⟨hattempts, hbackoff⟩⟩
    refine ⟨spec, maxAttempts, backoff, hcall, ?_⟩
    rw [overflows_iff (policy_of_prepareStep hcall)]
    rintro ⟨n, k, hn, hlt, hk, hmax⟩
    exact absurd (hsleep n k hn hlt hk) (by omega)
  · rintro ⟨spec, maxAttempts, backoff, hcall, hsleep⟩
    obtain ⟨henv, htimeout, hpolicy⟩ := (prepareStep_ok_iff h hp hinputs).mp ⟨_, hcall⟩
    obtain ⟨hattempts, hbackoff⟩ := stepRetryPolicy_ok_iff.mp hpolicy
    refine ⟨henv, htimeout, hattempts, hbackoff, fun n k hn hlt hk ↦ ?_⟩
    rw [overflows_iff (policy_of_prepareStep hcall)] at hsleep
    by_contra hmax
    exact hsleep ⟨n, k, hn, hlt, hk, by omega⟩

/-! ### Runs without structural errors -/

def Outcome.Structural : Outcome → Prop
  | .next => False
  | .failed (.stepFailed _) => False
  | _ => True

theorem result_runOperation {around : Surroundings} (h : Accepted ctx.packManifest)
    (hdeclared : stepsOf ctx.packManifest op ≠ [])
    (hshared : resolveShared repr (contextOf ctx op) = .ok shared) :
    (∃ result, (runOperation repr config around ctx op).2 = .ok result ∧
      ∀ failure, result.failure = some failure → ∃ message, failure = .stepFailed message) ↔
    ¬(runSteps repr config around (contextOf ctx op) shared (stepsOf ctx.packManifest op)
      { markers := around.markers }).2.Structural := by
  obtain ⟨hnil, -⟩ | hrun := h.runOperation repr config op around
  · exact absurd hnil hdeclared
  rw [hrun, runPhase, hshared]
  dsimp only
  rw [stepsOf]
  split
  · next heq =>
    rw [heq]
    refine ⟨?_, fun h ↦ absurd trivial h⟩
    rintro ⟨_, h, _⟩
    cases h
  · next failure heq =>
    rw [heq]
    cases failure with
    | stepFailed message =>
      refine ⟨fun _ h ↦ h, fun _ ↦ ⟨_, rfl, fun failure hfailure ↦ ⟨message, ?_⟩⟩⟩
      exact (Option.some.inj hfailure).symm
    | _ =>
      refine ⟨?_, fun h ↦ absurd trivial h⟩
      rintro ⟨_, hresult, h⟩
      cases hresult
      obtain ⟨message, hmessage⟩ := h _ rfl
      cases hmessage
  · next heq =>
    rw [heq]
    exact ⟨fun _ h ↦ h, fun _ ↦ ⟨_, rfl, by simp⟩⟩

theorem runSteps_not_structural {around : Surroundings} (h : Accepted ctx.packManifest)
    (hinputs : ScalarInputs repr ctx op)
    (hfields : ∀ p ∈ stepsOf ctx.packManifest op,
      stepEnabled repr (contextOf ctx op).vars p.2 = .ok true → StepFields p.2) :
    ¬(runSteps repr config around (contextOf ctx op) shared (stepsOf ctx.packManifest op)
      { markers := around.markers }).2.Structural := by
  rcases hrun : runSteps repr config around (contextOf ctx op) shared (stepsOf ctx.packManifest op)
    { markers := around.markers } with ⟨s', outcome⟩
  obtain ⟨rfl, -⟩ | ⟨before, p, after, s₁, hsteps, -, -, hstep⟩ := runSteps_rule
    (motive := fun _ _ ↦ True) (fun _ _ _ _ _ _ _ _ ↦ trivial) trivial hrun
  · exact id
  have hp : p ∈ stepsOf ctx.packManifest op := by simp [hsteps]
  have hshape : stepEnabled repr (contextOf ctx op).vars p.2 = .ok true → ∃ spec maxAttempts backoff,
      prepareStep repr config (contextOf ctx op) shared p.1 p.2 = .ok (spec, maxAttempts, backoff) ∧
        ¬(1 < maxAttempts ∧ maxSleepSeconds < backoff) :=
    fun henabled ↦ (stepFields_iff (h.argvStep hp) hp hinputs).mp (hfields p hp henabled)
  cases hstep with
  | notAnObject hdict =>
    rw [(h.argvStep hp).dict] at hdict
    cases hdict
  | noArgs _ hargs => exact absurd (h.argvStep hp).hasArgv hargs
  | gateRaised henabled =>
    obtain ⟨enabled, hgate⟩ := stepEnabled_of_scalar repr (hinputs.gates p hp)
    rw [hgate] at henabled
    cases henabled
  | unprepared henabled _ hprepare =>
    obtain ⟨spec, maxAttempts, backoff, hcall, -⟩ := hshape henabled
    rw [hprepare] at hcall
    cases hcall
  | overflow henabled _ hprepare _ hretry hbackoff =>
    obtain ⟨spec, maxAttempts, backoff, hcall, hsleep⟩ := hshape henabled
    rw [hprepare] at hcall
    cases hcall
    exact absurd ⟨hretry, hbackoff⟩ hsleep
  | failed => exact id
  | _ => exact id

/-- Surroundings in which the first `n` calls succeed and no other. -/
def failingAfter (n : Nat) : Surroundings where
  runner calls _ := { result := some { success := decide (calls.length < n), exitCode := 1 } }
  markers := []
  writable _ := false
  outputsFile _ := none

variable (config shared) in
theorem runOne_structural (h : ArgvStep p.2) (hp : p ∈ stepsOf ctx.packManifest op)
    (hinputs : ScalarInputs repr ctx op)
    (henabled : stepEnabled repr (contextOf ctx op).vars p.2 = .ok true)
    (hfields : ¬StepFields p.2) {n : Nat} {s : PhaseState} (hmarkers : s.markers = [])
    (hcalls : s.calls.length = n) : ∃ s' e,
      runOne repr config (failingAfter n) (contextOf ctx op) shared p.1 p.2 s = (s', .raised e) := by
  have hskip : ¬Skipped repr s.markers p := by
    rw [hmarkers]
    exact fun hskip ↦ (nomatch hskip.2)
  rw [runOne_launched h.dict h.hasArgv henabled hskip, launch]
  cases hprepare : prepareStep repr config (contextOf ctx op) shared p.1 p.2 with
  | error e => exact ⟨s, e, rfl⟩
  | ok call =>
    obtain ⟨spec, maxAttempts, backoff⟩ := call
    have hsleep : 1 < maxAttempts ∧ maxSleepSeconds < backoff := by
      by_contra hsleep
      exact hfields ((stepFields_iff h hp hinputs).mpr ⟨spec, maxAttempts, backoff, hprepare, hsleep⟩)
    obtain ⟨left, hleft⟩ : ∃ left, maxAttempts - 1 = left + 1 := ⟨maxAttempts - 2, by omega⟩
    have hanswer : ¬Settled (answer (failingAfter n) s.calls spec) := by
      simp [Settled, answer, failingAfter, hcalls]
    dsimp only
    rw [hleft, attemptStep_succ hanswer, if_pos hsleep.2]
    exact ⟨_, _, rfl⟩

variable (config shared) in
theorem stepFields_of_not_structural (h : Accepted ctx.packManifest)
    (hinputs : ScalarInputs repr ctx op)
    (hsound : ∀ n, ¬(runSteps repr config (failingAfter n) (contextOf ctx op) shared
      (stepsOf ctx.packManifest op) { markers := [] }).2.Structural) :
    ∀ p ∈ stepsOf ctx.packManifest op,
      stepEnabled repr (contextOf ctx op).vars p.2 = .ok true → StepFields p.2 := by
  classical
  by_contra hbad
  -- The first step that is called and is not in shape; a phase gets there if all before it succeed.
  obtain ⟨p, hfind⟩ : ∃ p, (stepsOf ctx.packManifest op).find? (fun p ↦ decide
      ¬(stepEnabled repr (contextOf ctx op).vars p.2 = .ok true → StepFields p.2)) = some p := by
    rw [← Option.isSome_iff_exists, find?_isSome]
    simpa using hbad
  obtain ⟨hbad, before, after, hsteps, hbefore⟩ := find?_eq_some_iff_append.mp hfind
  obtain ⟨henabled, hfields⟩ := Classical.not_imp.mp (of_decide_eq_true hbad)
  have hmem {q : Nat × Value} (hq : q ∈ before) : q ∈ stepsOf ctx.packManifest op := by
    simp [hsteps, hq]
  have hp : p ∈ stepsOf ctx.packManifest op := by simp [hsteps]
  have hpasses : ∀ q ∈ before, Passes repr config (contextOf ctx op) shared [] q := by
    intro q hq
    obtain ⟨enabled, hgate⟩ := stepEnabled_of_scalar repr (hinputs.gates q (hmem hq))
    cases enabled with
    | false => exact .inl hgate
    | true =>
      have hq' : StepFields q.2 := by simpa [hgate] using hbefore q hq
      obtain ⟨spec, maxAttempts, backoff, hcall, -⟩ :=
        (stepFields_iff (h.argvStep (hmem hq)) (hmem hq) hinputs).mp hq'
      exact .inr ⟨hgate, .inr ⟨_, hcall⟩⟩
  obtain ⟨n, hn⟩ := goesThrough_of_passes (fun q hq ↦ h.argvStep (hmem hq)) hpasses
  obtain ⟨s₁, hrun, hmarkers, hcalls⟩ := hn (failingAfter n) { markers := [] } (fun _ ↦ rfl) rfl
    (fun calls spec hlt ↦ by simpa [answer, failingAfter] using hlt)
  obtain ⟨s₂, e, hone⟩ := runOne_structural config shared (h.argvStep hp) hp hinputs henabled hfields
    hmarkers (by simpa using hcalls)
  apply hsound n
  rw [hsteps, runSteps_append, hrun]
  dsimp only
  rw [runSteps, hone]
  exact trivial

/-- An operation of an accepted manifest, with scalars for its inputs, is free of structural errors
exactly when the fields that the validation leaves open have the shape that the engine expects. -/
theorem structurallySound_iff {allowlist : Option (String → Bool)} {known : Option (List String)}
    {manifest : Value} {references : References}
    (hvalid : validateArtifactManifest repr allowlist known manifest =
      .ok (ctx.packManifest, references))
    (hkind : manifest.get "kind" = .str "container_image")
    (hdeclared : stepsOf ctx.packManifest op ≠ []) (hinputs : ScalarInputs repr ctx op) :
    StructurallySound repr ctx op config ↔ FieldsSound repr ctx op := by
  have haccepted := accepted_of_validate hvalid hkind
  constructor
  · intro hsound
    obtain ⟨shared, hshared⟩ : ∃ shared, resolveShared repr (contextOf ctx op) = .ok shared := by
      cases hshared : resolveShared repr (contextOf ctx op) with
      | ok shared => exact ⟨shared, rfl⟩
      | error e =>
        obtain ⟨result, hresult, -⟩ := hsound (failingAfter 0)
        obtain ⟨hnil, -⟩ | hrun := haccepted.runOperation repr config op (failingAfter 0)
        · exact absurd hnil hdeclared
        · rw [hrun, runPhase, hshared] at hresult
          cases hresult
    refine ⟨(resolveShared_ok_iff haccepted hinputs).mp ⟨shared, hshared⟩, ?_⟩
    refine stepFields_of_not_structural config shared haccepted hinputs fun n ↦ ?_
    exact (result_runOperation haccepted hdeclared hshared).mp (hsound (failingAfter n))
  · rintro ⟨hshared, hsteps⟩ around
    obtain ⟨shared, hshared⟩ := (resolveShared_ok_iff haccepted hinputs).mpr hshared
    rw [result_runOperation haccepted hdeclared hshared]
    exact runSteps_not_structural haccepted hinputs hsteps

end

def repositoryManifest (repository : List (String × Value)) : Value :=
  .dict [("schema_version", .int 1), ("name", .str "tool"), ("version", .str "1.0.0"),
    ("kind", .str "container_image"),
    ("container_image", .dict ([("registry_host", .str "ghcr.io"),
      ("digest", .str ("sha256:" ++ String.ofList (List.replicate 64 '0')))] ++ repository)),
    ("steps", .dict [("apply", .list [.dict [("args", .list [.str "tool", .str "\x7b\x7binputs.region\x7d\x7d"])]])]),
    ("execution", .dict [("engine", .str "container")])]

def repositoryContext (repository : List (String × Value)) : ModuleContext where
  moduleId := 1
  projectId := 1
  vars := [("region", .str "eu-west-1")]
  credentialsEnv := []
  packManifest := repositoryManifest repository

theorem repositoryManifest_valid :
    validateArtifactManifest (fun _ ↦ "") none none
        (repositoryManifest [("repository", .str "org/tool")]) =
      .ok (repositoryManifest [("repository", .str "org/tool")],
        ⟨"tool@1.0.0", ["tool@1.0.0"], []⟩) := rfl

theorem repositoryContext_scalar (repository : List (String × Value)) :
    ScalarInputs (fun _ ↦ "") (repositoryContext repository) .apply := by
  constructor
  case homeEnv =>
    intro item hitem
    cases hitem
  case gates =>
    intro p hp text htext
    obtain rfl := mem_singleton.mp hp
    cases htext
  case args =>
    intro p hp text htext
    obtain rfl := mem_singleton.mp hp
    have htexts : text ∈ ["tool", "\x7b\x7binputs.region\x7d\x7d"] := by
      obtain h | h := mem_cons.mp htext
      · simp [Value.str.inj h]
      · simp [Value.str.inj (mem_singleton.mp h)]
    have hscalar : ∀ text ∈ ["tool", "\x7b\x7binputs.region\x7d\x7d"], ∀ key ∈ tokensOf text,
        (lookupInput key [("region", .str "eu-west-1")]).isScalar = true := by decide +kernel
    exact hscalar text htexts
  case env =>
    intro p hp item hitem
    obtain rfl := mem_singleton.mp hp
    cases hitem

/-- The theorem for a manifest with a repository. -/
theorem structurallySound_repository : StructurallySound (fun _ ↦ "")
    (repositoryContext [("repository", .str "org/tool")]) .apply {} := by
  have hdeclared : stepsOf (repositoryContext [("repository", .str "org/tool")]).packManifest .apply ≠
      [] := List.cons_ne_nil _ _
  refine (structurallySound_iff repositoryManifest_valid rfl hdeclared
    (repositoryContext_scalar _)).mpr ⟨?_, fun p hp _ ↦ ?_⟩
  · refine ⟨fun host hhost ↦ ?_, ⟨"org/tool", rfl, by decide +kernel⟩, fun _ hpids ↦ nomatch hpids⟩
    obtain rfl : "ghcr.io" = host := Value.str.inj hhost
    decide +kernel
  · obtain rfl := List.mem_singleton.mp hp
    constructor
    case env => exact fun h ↦ nomatch h
    case timeout => exact fun _ _ h ↦ nomatch h
    case maxAttempts => exact fun h ↦ nomatch h
    case backoff => exact fun h ↦ nomatch h
    case sleep => exact fun _ _ h ↦ nomatch h

/-- The validation accepts a manifest without a repository, and the engine raises on it. -/
theorem missing_repository_raises :
    validateArtifactManifest (fun _ ↦ "") none none (repositoryManifest []) =
        .ok ((repositoryContext []).packManifest, ⟨"tool@1.0.0", ["tool@1.0.0"], []⟩) ∧
      (repositoryManifest []).get "kind" = .str "container_image" ∧
      stepsOf (repositoryContext []).packManifest .apply ≠ [] ∧
      ScalarInputs (fun _ ↦ "") (repositoryContext []) .apply ∧
      resolveShared (fun _ ↦ "") (repositoryContext []) = .error (.valueError
        "container_image block requires registry_host, repository, and digest") ∧
      ¬StructurallySound (fun _ ↦ "") (repositoryContext []) .apply {} := by
  have hshared : resolveShared (fun _ ↦ "") (repositoryContext []) = .error (.valueError
      "container_image block requires registry_host, repository, and digest") := by decide +kernel
  refine ⟨rfl, rfl, List.cons_ne_nil _ _, repositoryContext_scalar [], hshared, fun hsound ↦ ?_⟩
  obtain ⟨result, hresult, -⟩ := hsound (failingAfter 0)
  have hraised : (runOperation (fun _ ↦ "") {} (failingAfter 0) (repositoryContext []) .apply).2 =
      .error (.valueError
        "container_image block requires registry_host, repository, and digest") := by
    show (runPhase (fun _ ↦ "") {} (failingAfter 0) (repositoryContext [])
      (elements (stepSetOf (repositoryContext []).packManifest .apply)) true).2 = _
    rw [runPhase, hshared]
  rw [hraised] at hresult
  cases hresult

end BnkForge.Container
