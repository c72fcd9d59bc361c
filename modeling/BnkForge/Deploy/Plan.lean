import BnkForge.Deploy.Termination
import BnkForge.Graph.Layers

/-!
# The execution plan and the deploy chain

`deploy_project_parallel` (`backend/services/parallel_execution_service.py:190–272`) shows a plan
and then deploys by the event chain. The plan layers the enabled modules and ignores every
dependency outside of them; the chain looks at the raw dependency ids and at the status of
whatever row has that id, skips what is applied and unchanged, and asks for captured outputs
before an auto-apply. What the chain reaches is defined from the modules themselves, without
the chain.
-/

namespace BnkForge.Deploy

open ModuleStatus Transition List

variable {H : Type} [DecidableEq H] (P : Project H)

/-! ### The call -/

omit [DecidableEq H] in
/-- The rows that `get_execution_plan` reads. -/
def graphModules (names : Nat → Option String) : List Graph.GraphModule :=
  P.modules.map fun m ↦ ⟨m.id, m.dependencies, m.enabled, names m.id⟩

/-- `get_execution_plan` of the project. -/
def executionPlan (names : Nat → Option String) : Graph.ExecutionPlan :=
  Graph.getExecutionPlan (graphModules P names)

/-- `deploy_project_parallel` with `create_tasks`; `parallel_execution_service.py:190`. -/
def deployProjectParallel (names : Nat → Option String) (st : Statuses) :
    Except Graph.PlanError State :=
  match (executionPlan P names).dispatches "deploy" with
  | .ok true => .ok (initial st)
  | .ok false => .ok { initial st with requested := false }
  | .error e => .error e

/-- Nothing of the run is left to happen. -/
def AtRest (s : State) : Prop :=
  s.requested = false ∧ s.hooks = 0 ∧ s.waves = [] ∧ s.active = [] ∧ s.autoApply = []

/-- What a deploy of a project with the statuses `st` can reach: what is applied, and the
enabled modules all of whose dependencies it can reach. -/
inductive Reaches (P : Project H) (st : Statuses) : Nat → Prop
  | start {x : Nat} (h : isApplied st x = true) : Reaches P st x
  | deploy {m : ModuleSpec} (hm : m ∈ P.modules) (henabled : m.enabled = true)
      (hdeps : ∀ d ∈ m.dependencies, Reaches P st d) : Reaches P st m.id

def AgreesWithPlan (names : Nat → Option String) (st : Statuses) : Prop :=
  ∀ es t, Run (step P) Free (initial st) es t → AtRest t →
    ∀ x, .finishApply x ∈ es ↔ x ∈ (executionPlan P names).modules

def InOrder (st : Statuses) (es : List Event) : Prop :=
  ∀ es₁ x es₂, es = es₁ ++ .finishApply x :: es₂ → ∀ m ∈ P.modules, m.id = x →
    ∀ d ∈ m.dependencies, isApplied st d = true ∨ .finishApply d ∈ es₁

/-! ### The wave of a read -/

section Read

variable {P} {active : List Dispatch} {st : Statuses} {m : ModuleSpec} {type : TaskType}

private theorem depsReady_of_dispatchOf (h : dispatchOf P active st m = some type) :
    depsReady st m = true := by
  unfold dispatchOf at h
  by_contra hne
  rw [Bool.not_eq_true] at hne
  rw [hne] at h
  repeat' split at h
  all_goals simp_all

private theorem depsApplied_of_mem {ms : List ModuleSpec} {x : Dispatch}
    (hx : x ∈ dispatchFirstWave P active ms st) :
    ∃ m ∈ ms, m.id = x.1 ∧ m.enabled = true ∧ ∀ d ∈ m.dependencies, isApplied st d = true := by
  induction ms generalizing st with
  | nil => cases hx
  | cons m ms ih =>
    rw [dispatchFirstWave] at hx
    split at hx
    · next type hd =>
      rcases mem_cons.mp hx with rfl | hx
      · refine ⟨m, mem_cons_self, rfl, (of_dispatchOf hd).1, ?_⟩
        exact all_eq_true.mp (depsReady_of_dispatchOf hd)
      · obtain ⟨k, hk, hid, hen, hdeps⟩ := ih hx
        refine ⟨k, mem_cons_of_mem m hk, hid, hen, fun d hd ↦ ?_⟩
        exact isApplied_of_setStatus (dispatchedStatus_ne_applied type) (hdeps d hd)
    · obtain ⟨k, hk, h⟩ := ih hx
      exact ⟨k, mem_cons_of_mem m hk, h⟩

private theorem dispatchOf_congr {st' : Statuses} (happlied : isApplied st' = isApplied st)
    (hstatus : st' m.id = st m.id) : dispatchOf P active st' m = dispatchOf P active st m := by
  have hvars : varsChanged P st' m.id = varsChanged P st m.id := by
    unfold varsChanged
    rw [happlied]
  unfold dispatchOf depsReady
  rw [hvars, happlied, hstatus]

private theorem init_mem_of_no_apply {ms : List ModuleSpec}
    (hids : (ms.map ModuleSpec.id).Nodup)
    (hno : ∀ x, (x, TaskType.apply) ∉ dispatchFirstWave P active ms st) (hm : m ∈ ms)
    (hd : dispatchOf P active st m ≠ none) :
    (m.id, TaskType.init) ∈ dispatchFirstWave P active ms st := by
  induction ms generalizing st with
  | nil => cases hm
  | cons k ms ih =>
    obtain ⟨hhead, htail⟩ := nodup_cons.mp hids
    rw [dispatchFirstWave] at hno ⊢
    split
    · next type htype =>
      rw [htype] at hno
      -- the modules dispatched so far were not initialized, so the applied ones are the same
      rcases (of_dispatchOf htype).2.2.2 with ⟨rfl, hinit⟩ | rfl
      · rcases mem_cons.mp hm with rfl | hm
        · exact mem_cons_self
        · have hne : m.id ≠ k.id := by
            intro heq
            exact hhead (heq ▸ mem_map_of_mem hm)
          have hnot : isApplied st k.id = false := by
            rw [isApplied, hinit]
            rfl
          have hsame : dispatchOf P active (setStatus st k.id (dispatchedStatus .init)) m =
              dispatchOf P active st m := by
            apply dispatchOf_congr
            · exact isApplied_setStatus_dispatched .init k.id hnot
            · exact Function.update_of_ne hne ..
          refine mem_cons_of_mem _ (ih htail ?_ hm (hsame ▸ hd))
          exact fun x hx ↦ hno x (mem_cons_of_mem _ hx)
      · exact absurd mem_cons_self (hno k.id)
    · next hnone =>
      rw [hnone] at hno
      rcases mem_cons.mp hm with rfl | hm
      · exact absurd hnone hd
      · exact ih htail hno hm hd

end Read

/-! ### Waking up -/

/-- Something is on its way that ends in a wave. -/
def Busy (s : State) : Prop :=
  s.requested = true ∨ 0 < s.hooks ∨
    ∃ x, (x, TaskType.apply) ∈ s.active ∨ (x, TaskType.apply) ∈ s.waves.flatten

def Initializes (s : State) (x : Nat) : Prop :=
  (x, TaskType.init) ∈ s.active ∨ (x, TaskType.init) ∈ s.waves.flatten ∨ x ∈ s.autoApply

def touched (s : State) : List Nat := s.dispatched.map Prod.fst

/-- The module is enabled, and what it depends on was applied from the start or has been
dispatched. -/
def Supported (P : Project H) (st : Statuses) (s : State) (x : Nat) : Prop :=
  ∃ m ∈ P.modules, m.id = x ∧ m.enabled = true ∧
    ∀ d ∈ m.dependencies, isApplied st d = true ∨ d ∈ touched s

/-- What holds in every state of a deploy of a project with the statuses `st`. -/
structure WaveInv (P : Project H) (st : Statuses) (s : State) : Prop where
  types : ∀ x, x ∈ s.active ∨ x ∈ s.waves.flatten → x.2 = .init ∨ x.2 = .apply
  logged : ∀ x, x ∈ s.active.map Prod.fst ∨ x ∈ s.autoApply → x ∈ touched s
  supported : ∀ x, x ∈ touched s ∨ x ∈ s.waves.flatten.map Prod.fst → Supported P st s x
  untouched : ∀ x, x ∉ touched s → s.statuses x = st x
  /-- Nothing ready is forgotten. -/
  wake : ¬ Busy s → ∀ m ∈ P.modules, m.enabled = true → isApplied s.statuses m.id = false →
    depsReady s.statuses m = true → Initializes s m.id
  /-- Once nothing is on its way, the dispatcher finds nothing. -/
  rest : ¬ Busy s → (∀ x, ¬ Initializes s x) → ∀ m ∈ P.modules,
    dispatchOf P [] s.statuses m = none

section Inv

variable {P} {st : Statuses} {s t : State}

omit [DecidableEq H] in
private theorem Supported.mono {x : Nat} (h : Supported P st s x)
    (hsub : ∀ x ∈ touched s, x ∈ touched t) : Supported P st t x := by
  obtain ⟨m, hm, hid, hen, hdeps⟩ := h
  exact ⟨m, hm, hid, hen, fun d hd ↦ (hdeps d hd).imp id (hsub d)⟩

theorem waveInv_initial (st : Statuses) : WaveInv P st (initial st) := by
  have hbusy : Busy (initial st) := Or.inl rfl
  refine ⟨?_, ?_, ?_, fun _ _ ↦ rfl, fun h ↦ absurd hbusy h, fun h ↦ absurd hbusy h⟩
  · rintro x (hx | hx) <;> cases hx
  · rintro x (hx | hx) <;> cases hx
  · rintro x (hx | hx) <;> cases hx

omit [DecidableEq H] in
private theorem not_busy (h : ¬ Busy s) :
    s.requested = false ∧ s.hooks = 0 ∧ (∀ x, (x, TaskType.apply) ∉ s.active) ∧
      ∀ x, (x, TaskType.apply) ∉ s.waves.flatten := by
  simp only [Busy, not_or, not_exists, Bool.not_eq_true, Nat.not_lt, Nat.le_zero_eq] at h
  exact ⟨h.1, h.2.1, fun x ↦ (h.2.2 x).1, fun x ↦ (h.2.2 x).2⟩

private theorem dispatchOf_ne_none {active : List Dispatch} {m : ModuleSpec}
    (hen : m.enabled = true) (hnot : isApplied st m.id = false)
    (hfree : ∀ x ∈ active, x.1 ≠ m.id) (hready : depsReady st m = true) :
    dispatchOf P active st m ≠ none := by
  have hany : active.any (·.1 == m.id) = false := by
    rw [any_eq_false]
    intro x hx
    simpa using hfree x hx
  unfold dispatchOf
  simp only [hen, hnot, hany, hready, Bool.not_true, Bool.false_and, Bool.false_eq_true, if_false]
  split <;> simp

private theorem WaveInv.read (h : WaveInv P st s) (requested : Bool) (hooks : Nat) :
    WaveInv P st { s with
      requested := requested, hooks := hooks, waves := s.waves ++ [currentWave P s] } := by
  have hflat : ∀ x, x ∈ (s.waves ++ [currentWave P s]).flatten ↔
      x ∈ s.waves.flatten ∨ x ∈ currentWave P s := by simp
  have hwave := fun x (hx : x ∈ currentWave P s) ↦ of_mem_dispatchFirstWave P.ids_nodup hx
  refine ⟨?_, h.logged, ?_, h.untouched, ?_, ?_⟩
  · rintro x (hx | hx)
    · exact h.types x (Or.inl hx)
    · rcases (hflat x).mp hx with hx | hx
      · exact h.types x (Or.inr hx)
      · exact (hwave x hx).2.2.imp And.left id
  · rintro x (hx | hx)
    · exact (h.supported x (Or.inl hx)).mono fun _ hx ↦ hx
    · obtain ⟨y, hy, rfl⟩ := mem_map.mp hx
      rcases (hflat y).mp hy with hy | hy
      · exact (h.supported y.1 (Or.inr (mem_map_of_mem hy))).mono fun _ hx ↦ hx
      · obtain ⟨m, hm, hid, hen, hdeps⟩ := depsApplied_of_mem hy
        refine ⟨m, hm, hid, hen, fun d hd ↦ ?_⟩
        by_cases htouched : d ∈ touched s
        · exact Or.inr htouched
        · have happlied := hdeps d hd
          rw [isApplied, h.untouched d htouched] at happlied
          exact Or.inl happlied
  · intro hbusy m hm hen hnot hready
    obtain ⟨-, -, hactive, hwaves⟩ := not_busy hbusy
    by_cases hfree : ∀ x ∈ s.active, x.1 ≠ m.id
    · refine Or.inr (Or.inl ((hflat _).mpr (Or.inr ?_)))
      refine init_mem_of_no_apply P.ids_nodup (fun x hx ↦ ?_) hm
        (dispatchOf_ne_none hen hnot hfree hready)
      exact hwaves x ((hflat _).mpr (Or.inr hx))
    · simp only [not_forall, ne_eq, not_not] at hfree
      obtain ⟨x, hx, hid⟩ := hfree
      obtain ⟨y, type⟩ := x
      subst hid
      rcases h.types _ (Or.inl hx) with rfl | rfl
      · exact Or.inl hx
      · exact absurd hx (hactive _)
  · intro hbusy hidle m hm
    obtain ⟨-, -, hactive, hwaves⟩ := not_busy hbusy
    have hnil : s.active = [] := by
      apply eq_nil_iff_forall_not_mem.mpr
      rintro ⟨y, type⟩ hx
      rcases h.types _ (Or.inl hx) with rfl | rfl
      · exact hidle y (Or.inl hx)
      · exact hactive y hx
    by_contra hd
    rw [← hnil] at hd
    refine hidle m.id (Or.inr (Or.inl ((hflat _).mpr (Or.inr ?_))))
    refine init_mem_of_no_apply P.ids_nodup (fun x hx ↦ ?_) hm hd
    exact hwaves x ((hflat _).mpr (Or.inr hx))

/-- A status other than `applied` frees no module. -/
private theorem depsReady_mono {st' : Statuses} {m : ModuleSpec}
    (hle : ∀ d, isApplied st' d = true → isApplied st d = true) (h : depsReady st' m = true) :
    depsReady st m = true := by
  rw [depsReady, all_eq_true] at h ⊢
  exact fun d hd ↦ hle d (h d hd)

private theorem isApplied_commitStatuses {wave : List Dispatch} {d : Nat}
    (h : isApplied (commitStatuses st wave) d = true) :
    isApplied st d = true ∧ d ∉ wave.map Prod.fst := by
  rcases commitStatuses_cases st wave d with ⟨heq, hnot⟩ | ⟨type, -, heq⟩
  · rw [isApplied, heq] at h
    exact ⟨h, hnot⟩
  · rw [isApplied, heq] at h
    cases type <;> cases h

private theorem mem_flatten_erase {waves : List (List Dispatch)} (wave : List Dispatch)
    {x : Dispatch} (hx : x ∈ waves.flatten) : x ∈ wave ∨ x ∈ (waves.erase wave).flatten := by
  obtain ⟨v, hv, hxv⟩ := mem_flatten.mp hx
  by_cases heq : v = wave
  · exact Or.inl (heq ▸ hxv)
  · exact Or.inr (mem_flatten.mpr ⟨v, (mem_erase_of_ne heq).mpr hv, hxv⟩)

private theorem mem_flatten_of_erase {waves : List (List Dispatch)} {wave : List Dispatch}
    {x : Dispatch} (hx : x ∈ (waves.erase wave).flatten) : x ∈ waves.flatten := by
  obtain ⟨v, hv, hxv⟩ := mem_flatten.mp hx
  exact mem_flatten.mpr ⟨v, mem_of_mem_erase hv, hxv⟩

def State.committed (s : State) (wave : List Dispatch) : State :=
  { s with
    statuses := commitStatuses s.statuses wave
    active := s.active ++ wave
    waves := s.waves.erase wave
    dispatched := s.dispatched ++ wave }

private theorem WaveInv.commit (h : WaveInv P st s) {wave : List Dispatch}
    (hwave : wave ∈ s.waves) :
    WaveInv P st (s.committed wave) := by
  have hflat : ∀ x ∈ wave, x ∈ s.waves.flatten := fun x hx ↦ mem_flatten.mpr ⟨wave, hwave, hx⟩
  have htouched : ∀ x ∈ touched s, x ∈ (s.dispatched ++ wave).map Prod.fst := by
    intro x hx
    rw [map_append]
    exact mem_append_left _ hx
  have hbusy_of : Busy s → Busy (s.committed wave) := by
    rintro (hreq | hhooks | ⟨x, hx | hx⟩)
    · exact Or.inl hreq
    · exact Or.inr (Or.inl hhooks)
    · exact Or.inr (Or.inr ⟨x, Or.inl (mem_append_left _ hx)⟩)
    · rcases mem_flatten_erase wave hx with hx | hx
      · exact Or.inr (Or.inr ⟨x, Or.inl (mem_append_right _ hx)⟩)
      · exact Or.inr (Or.inr ⟨x, Or.inr hx⟩)
  have hinit_of : ∀ x, Initializes s x → Initializes (s.committed wave) x := by
    rintro x (hx | hx | hx)
    · exact Or.inl (mem_append_left _ hx)
    · rcases mem_flatten_erase wave hx with hx | hx
      · exact Or.inl (mem_append_right _ hx)
      · exact Or.inr (Or.inl hx)
    · exact Or.inr (Or.inr hx)
  refine ⟨?_, ?_, ?_, ?_, ?_, ?_⟩
  · rintro x (hx | hx)
    · rcases mem_append.mp hx with hx | hx
      · exact h.types x (Or.inl hx)
      · exact h.types x (Or.inr (hflat x hx))
    · exact h.types x (Or.inr (mem_flatten_of_erase hx))
  · rintro x (hx | hx)
    · rw [State.committed, map_append, mem_append] at hx
      rcases hx with hx | hx
      · exact htouched x (h.logged x (Or.inl hx))
      · simp only [touched, State.committed, map_append]
        exact mem_append_right _ hx
    · exact htouched x (h.logged x (Or.inr hx))
  · rintro x (hx | hx)
    · simp only [touched, State.committed, map_append, mem_append] at hx
      refine Supported.mono ?_ htouched
      rcases hx with hx | hx
      · exact h.supported x (Or.inl hx)
      · obtain ⟨y, hy, rfl⟩ := mem_map.mp hx
        exact h.supported y.1 (Or.inr (mem_map_of_mem (hflat y hy)))
    · obtain ⟨y, hy, rfl⟩ := mem_map.mp hx
      refine Supported.mono ?_ htouched
      exact h.supported y.1 (Or.inr (mem_map_of_mem (mem_flatten_of_erase hy)))
  · intro x hx
    simp only [touched, State.committed, map_append, mem_append, not_or] at hx
    rcases commitStatuses_cases s.statuses wave x with ⟨heq, -⟩ | ⟨type, hmem, -⟩
    · exact heq.trans (h.untouched x hx.1)
    · exact absurd (mem_map_of_mem hmem) hx.2
  · intro hbusy m hm hen hnot hready
    have hbusy' := mt hbusy_of hbusy
    by_cases happlied : isApplied s.statuses m.id = true
    · -- the wave has just taken it out of `applied`, with an init
      rcases commitStatuses_cases s.statuses wave m.id with ⟨heq, -⟩ | ⟨type, hmem, -⟩
      · have hsame : isApplied (s.committed wave).statuses m.id = isApplied s.statuses m.id := by
          simp only [State.committed, isApplied, heq]
        exact absurd (happlied.symm.trans (hsame.symm.trans hnot)) (by decide)
      · rcases h.types _ (Or.inr (hflat _ hmem)) with rfl | rfl
        · exact Or.inl (mem_append_right _ hmem)
        · exact absurd (Or.inr (Or.inr ⟨_, Or.inl (mem_append_right _ hmem)⟩)) hbusy
    · rw [Bool.not_eq_true] at happlied
      refine hinit_of _ (h.wake hbusy' m hm hen happlied ?_)
      exact depsReady_mono (fun d hd ↦ (isApplied_commitStatuses hd).1) hready
  · intro hbusy hidle m hm
    have hnil : wave = [] := by
      apply eq_nil_iff_forall_not_mem.mpr
      rintro ⟨y, type⟩ hx
      rcases h.types _ (Or.inr (hflat _ hx)) with rfl | rfl
      · exact hidle y (Or.inl (mem_append_right _ hx))
      · exact hbusy (Or.inr (Or.inr ⟨y, Or.inl (mem_append_right _ hx)⟩))
    rw [State.committed, hnil]
    exact h.rest (mt hbusy_of hbusy) (fun x hx ↦ hidle x (hinit_of x hx)) m hm

omit [DecidableEq H] in
private theorem isApplied_setStatus {x d : Nat} {status : ModuleStatus} (hne : status ≠ applied)
    (h : isApplied (setStatus st x status) d = true) : isApplied st d = true ∧ d ≠ x := by
  by_cases hd : d = x
  · subst hd
    rw [isApplied, setStatus, Function.update_self, beq_iff_eq] at h
    exact absurd (Option.some.inj h) hne
  · rw [isApplied, setStatus, Function.update_of_ne hd] at h
    exact ⟨h, hd⟩

private theorem WaveInv.finishInit (h : WaveInv P st s) {x : Nat}
    (hx : (x, TaskType.init) ∈ s.active) :
    WaveInv P st { s with
      statuses := setStatus s.statuses x initialized
      active := s.active.erase (x, .init)
      autoApply := s.autoApply ++ [x] } := by
  have hlog : x ∈ touched s := h.logged x (Or.inl (mem_map_of_mem hx))
  refine ⟨?_, ?_, ?_, ?_, ?_, ?_⟩
  · exact fun y hy ↦ h.types y (hy.imp mem_of_mem_erase id)
  · rintro y (hy | hy)
    · obtain ⟨z, hz, rfl⟩ := mem_map.mp hy
      exact h.logged z.1 (Or.inl (mem_map_of_mem (mem_of_mem_erase hz)))
    · rcases mem_append.mp hy with hy | hy
      · exact h.logged y (Or.inr hy)
      · rw [mem_singleton.mp hy]
        exact hlog
  · exact fun y hy ↦ (h.supported y hy).mono fun _ hz ↦ hz
  · intro y hy
    have hne : y ≠ x := by
      rintro rfl
      exact hy hlog
    exact (Function.update_of_ne hne ..).trans (h.untouched y hy)
  · intro hbusy m hm hen hnot hready
    by_cases hid : m.id = x
    · exact Or.inr (Or.inr (mem_append_right _ (by rw [hid]; exact mem_singleton_self x)))
    · have hbusy' : ¬ Busy s := by
        rintro (hreq | hhooks | ⟨y, hy | hy⟩)
        · exact hbusy (Or.inl hreq)
        · exact hbusy (Or.inr (Or.inl hhooks))
        · exact hbusy (Or.inr (Or.inr ⟨y, Or.inl ((mem_erase_of_ne (by simp)).mpr hy)⟩))
        · exact hbusy (Or.inr (Or.inr ⟨y, Or.inr hy⟩))
      have hsame : isApplied s.statuses m.id = false := by
        simpa only [isApplied, setStatus, Function.update_of_ne hid] using hnot
      have hready' := depsReady_mono (fun d hd ↦ (isApplied_setStatus (by decide) hd).1) hready
      rcases h.wake hbusy' m hm hen hsame hready' with hi | hi | hi
      · refine Or.inl ((mem_erase_of_ne ?_).mpr hi)
        exact fun heq ↦ hid (congrArg Prod.fst heq)
      · exact Or.inr (Or.inl hi)
      · exact Or.inr (Or.inr (mem_append_left _ hi))
  · intro _ hidle
    exact absurd (Or.inr (Or.inr (mem_append_right _ (mem_singleton_self x)))) (hidle x)

private theorem WaveInv.autoApply (h : WaveInv P st s) {x : Nat} (hx : x ∈ s.autoApply) :
    WaveInv P st { s with
      statuses := setStatus s.statuses x applying
      active := s.active ++ [(x, .apply)]
      autoApply := s.autoApply.erase x
      dispatched := s.dispatched ++ [(x, .apply)] } := by
  have hlog : x ∈ touched s := h.logged x (Or.inr hx)
  have hbusy : Busy { s with
      statuses := setStatus s.statuses x applying
      active := s.active ++ [(x, .apply)]
      autoApply := s.autoApply.erase x
      dispatched := s.dispatched ++ [(x, .apply)] } :=
    Or.inr (Or.inr ⟨x, Or.inl (mem_append_right _ (mem_singleton_self _))⟩)
  have htouched : ∀ y, y ∈ (s.dispatched ++ [(x, TaskType.apply)]).map Prod.fst ↔ y ∈ touched s := by
    intro y
    rw [map_append, mem_append]
    refine ⟨?_, Or.inl⟩
    rintro (hy | hy)
    · exact hy
    · rw [mem_singleton.mp hy]
      exact hlog
  refine ⟨?_, ?_, ?_, ?_, fun hn ↦ absurd hbusy hn, fun hn ↦ absurd hbusy hn⟩
  · rintro y (hy | hy)
    · rcases mem_append.mp hy with hy | hy
      · exact h.types y (Or.inl hy)
      · rw [mem_singleton.mp hy]
        exact Or.inr rfl
    · exact h.types y (Or.inr hy)
  · rintro y (hy | hy)
    · rw [map_append, mem_append] at hy
      rcases hy with hy | hy
      · exact (htouched y).mpr (h.logged y (Or.inl hy))
      · rw [mem_singleton.mp hy]
        exact (htouched x).mpr hlog
    · exact (htouched y).mpr (h.logged y (Or.inr (mem_of_mem_erase hy)))
  · intro y hy
    refine (h.supported y (hy.imp (htouched y).mp id)).mono fun z hz ↦ (htouched z).mpr hz
  · intro y hy
    have hy' : y ∉ touched s := fun hmem ↦ hy ((htouched y).mpr hmem)
    have hne : y ≠ x := by
      rintro rfl
      exact hy' hlog
    exact (Function.update_of_ne hne ..).trans (h.untouched y hy')

private theorem WaveInv.finishApply (h : WaveInv P st s) {x : Nat}
    (hx : (x, TaskType.apply) ∈ s.active) :
    WaveInv P st { s with
      statuses := setStatus s.statuses x applied
      active := s.active.erase (x, .apply)
      hooks := s.hooks + 1 } := by
  have hlog : x ∈ touched s := h.logged x (Or.inl (mem_map_of_mem hx))
  have hbusy : Busy { s with
      statuses := setStatus s.statuses x applied
      active := s.active.erase (x, .apply)
      hooks := s.hooks + 1 } := Or.inr (Or.inl (Nat.succ_pos _))
  refine ⟨?_, ?_, ?_, ?_, fun hn ↦ absurd hbusy hn, fun hn ↦ absurd hbusy hn⟩
  · exact fun y hy ↦ h.types y (hy.imp mem_of_mem_erase id)
  · rintro y (hy | hy)
    · obtain ⟨z, hz, rfl⟩ := mem_map.mp hy
      exact h.logged z.1 (Or.inl (mem_map_of_mem (mem_of_mem_erase hz)))
    · exact h.logged y (Or.inr hy)
  · exact fun y hy ↦ (h.supported y hy).mono fun _ hz ↦ hz
  · intro y hy
    have hne : y ≠ x := by
      rintro rfl
      exact hy hlog
    exact (Function.update_of_ne hne ..).trans (h.untouched y hy)

private theorem WaveInv.exists_waiting (h : WaveInv P st s) {m : ModuleSpec} (hm : m ∈ P.modules)
    (hx : m.id ∈ touched s) (hnot : depsReady s.statuses m = false) :
    ∃ d ∈ m.dependencies, d ∈ touched s ∧ isApplied s.statuses d = false := by
  obtain ⟨d, hd, hnotd⟩ := all_eq_false.mp hnot
  rw [Bool.not_eq_true] at hnotd
  refine ⟨d, hd, ?_, hnotd⟩
  obtain ⟨k, hk, hid, -, hdeps⟩ := h.supported m.id (Or.inl hx)
  rw [inj_on_of_nodup_map P.ids_nodup hk hm hid] at hdeps
  by_contra hun
  rcases hdeps d hd with happlied | hmem
  · rw [isApplied, h.untouched d hun] at hnotd
    exact absurd (happlied.symm.trans hnotd) (by decide)
  · exact hun hmem

private theorem WaveInv.exists_ready (h : WaveInv P st s) {x : Nat} (hx : x ∈ touched s)
    (hnot : isApplied s.statuses x = false) :
    ∃ m ∈ P.modules, m.enabled = true ∧ isApplied s.statuses m.id = false ∧
      depsReady s.statuses m = true := by
  obtain ⟨rank, hrank⟩ := P.acyclic
  induction hn : rank x using Nat.strongRecOn generalizing x with
  | _ n ih =>
    obtain ⟨m, hm, rfl, hen, -⟩ := h.supported x (Or.inl hx)
    by_cases hready : depsReady s.statuses m = true
    · exact ⟨m, hm, hen, hnot, hready⟩
    · rw [Bool.not_eq_true] at hready
      obtain ⟨d, hd, htouched, hnotd⟩ := h.exists_waiting hm hx hready
      obtain ⟨k, hk, rfl, henk, -⟩ := h.supported d (Or.inl htouched)
      exact ih (rank k.id) (hn ▸ hrank m hm hen k hk henk hd) htouched hnotd rfl

private theorem WaveInv.skipAutoApply (h : WaveInv P st s) {m : ModuleSpec} (hm : m ∈ P.modules)
    (hx : m.id ∈ s.autoApply) (hnot : depsReady s.statuses m = false) :
    WaveInv P st { s with autoApply := s.autoApply.erase m.id } := by
  have hwake : ¬ Busy s → ∀ k ∈ P.modules, k.enabled = true → isApplied s.statuses k.id = false →
      depsReady s.statuses k = true →
        Initializes { s with autoApply := s.autoApply.erase m.id } k.id := by
    intro hbusy k hk hen happlied hready
    have hne : k.id ≠ m.id := by
      intro heq
      rw [inj_on_of_nodup_map P.ids_nodup hk hm heq] at hready
      exact absurd (hready.symm.trans hnot) (by decide)
    rcases h.wake hbusy k hk hen happlied hready with hi | hi | hi
    · exact Or.inl hi
    · exact Or.inr (Or.inl hi)
    · exact Or.inr (Or.inr ((mem_erase_of_ne hne).mpr hi))
  refine ⟨h.types, ?_, ?_, h.untouched, hwake, ?_⟩
  · exact fun y hy ↦ h.logged y (hy.imp id mem_of_mem_erase)
  · exact fun y hy ↦ (h.supported y hy).mono fun _ hz ↦ hz
  · -- below a dependency that is not applied there is a module that is ready, with its init
    intro hbusy hidle
    obtain ⟨d, -, htouched, hnotd⟩ := h.exists_waiting hm (h.logged m.id (Or.inr hx)) hnot
    obtain ⟨k, hk, hen, happlied, hready⟩ := h.exists_ready htouched hnotd
    exact absurd (hwake hbusy k hk hen happlied hready) (hidle k.id)

def OutputsCaptured (P : Project H) : Prop :=
  ∀ m ∈ P.modules, m.enabled = true → ∀ d ∈ m.dependencies, P.outputsCaptured d = true

theorem waveInv_step (hcaptured : OutputsCaptured P) (h : WaveInv P st s) {e : Event}
    (hst : step P s e = some t) : WaveInv P st t := by
  cases e with
  | deploy | hook =>
    rw [step, Option.ite_none_right_eq_some] at hst
    cases hst.2
    exact h.read _ _
  | commitWave wave =>
    rw [step, Option.ite_none_right_eq_some] at hst
    cases hst.2
    exact h.commit hst.1
  | finishInit x =>
    rw [step, Option.ite_none_right_eq_some] at hst
    cases hst.2
    exact h.finishInit hst.1
  | checkAutoApply m =>
    rw [step, Option.ite_none_right_eq_some] at hst
    obtain ⟨⟨hx, hm⟩, hst⟩ := hst
    split at hst
    · cases hst
      exact h.autoApply hx
    · next hnot =>
      cases hst
      refine h.skipAutoApply hm hx ?_
      obtain ⟨k, hk, hid, hen, -⟩ := h.supported m.id (Or.inl (h.logged m.id (Or.inr hx)))
      rw [inj_on_of_nodup_map P.ids_nodup hk hm hid] at hen
      rw [Bool.not_eq_true, canExecute, all_eq_false] at hnot
      obtain ⟨d, hd, hnotd⟩ := hnot
      rw [hcaptured m hm hen d hd, Bool.and_true] at hnotd
      exact all_eq_false.mpr ⟨d, hd, hnotd⟩
  | finishApply x =>
    rw [step, Option.ite_none_right_eq_some] at hst
    cases hst.2
    exact h.finishApply hst.1

/-! ### What a run reaches -/

private theorem WaveInv.reaches_of_touched (h : WaveInv P st s) {x : Nat} (hx : x ∈ touched s) :
    Reaches P st x := by
  obtain ⟨rank, hrank⟩ := P.acyclic
  induction hn : rank x using Nat.strongRecOn generalizing x with
  | _ n ih =>
    obtain ⟨m, hm, rfl, hen, hdeps⟩ := h.supported x (Or.inl hx)
    refine Reaches.deploy hm hen fun d hd ↦ ?_
    rcases hdeps d hd with happlied | htouched
    · exact Reaches.start happlied
    · obtain ⟨k, hk, rfl, henk, -⟩ := h.supported d (Or.inl htouched)
      exact ih (rank k.id) (hn ▸ hrank m hm hen k hk henk hd) htouched rfl

private theorem WaveInv.reaches (h : WaveInv P st s) {x : Nat}
    (hx : isApplied s.statuses x = true) : Reaches P st x := by
  by_cases htouched : x ∈ touched s
  · exact h.reaches_of_touched htouched
  · rw [isApplied, h.untouched x htouched] at hx
    exact Reaches.start hx

private theorem not_busy_of_atRest (h : AtRest s) : ¬ Busy s ∧ ∀ x, ¬ Initializes s x := by
  obtain ⟨hreq, hhooks, hwaves, hactive, hauto⟩ := h
  constructor
  · simp [Busy, hreq, hhooks, hwaves, hactive]
  · simp [Initializes, hwaves, hactive, hauto]

private theorem WaveInv.nothing_left (h : WaveInv P st s) (hrest : AtRest s) {m : ModuleSpec}
    (hm : m ∈ P.modules) : dispatchOf P [] s.statuses m = none := by
  obtain ⟨hbusy, hidle⟩ := not_busy_of_atRest hrest
  exact h.rest hbusy hidle m hm

private theorem WaveInv.applied_of_ready (h : WaveInv P st s) (hrest : AtRest s) {m : ModuleSpec}
    (hm : m ∈ P.modules) (hen : m.enabled = true) (hready : depsReady s.statuses m = true) :
    isApplied s.statuses m.id = true := by
  by_contra hnot
  rw [Bool.not_eq_true] at hnot
  exact dispatchOf_ne_none hen hnot (by simp) hready (h.nothing_left hrest hm)

private theorem WaveInv.applied_of_reaches (h : WaveInv P st s) (hrest : AtRest s) {x : Nat}
    (hx : Reaches P st x) : isApplied s.statuses x = true := by
  induction hx with
  | @start x happlied =>
    by_contra hnot
    rw [Bool.not_eq_true] at hnot
    by_cases htouched : x ∈ touched s
    · obtain ⟨m, hm, hen, hnotm, hready⟩ := h.exists_ready htouched hnot
      exact absurd ((h.applied_of_ready hrest hm hen hready).symm.trans hnotm) (by decide)
    · rw [isApplied, h.untouched x htouched] at hnot
      exact absurd (happlied.symm.trans hnot) (by decide)
  | deploy hm hen _ ih =>
    exact h.applied_of_ready hrest hm hen (all_eq_true.mpr ih)

private theorem WaveInv.exists_step (h : WaveInv P st s) (hrest : ¬ AtRest s) :
    ∃ e t, step P s e = some t ∧ (Alone s ∨ ∀ k, SoundWave P k e) := by
  by_cases hwaves : s.waves = []
  · by_cases hauto : s.autoApply = []
    · have halone : Alone s := ⟨hwaves, hauto⟩
      by_cases hactive : s.active = []
      · by_cases hreq : s.requested = true
        · exact ⟨.deploy, _, if_pos hreq, Or.inl halone⟩
        · have hhooks : 0 < s.hooks := by
            rw [Bool.not_eq_true] at hreq
            by_contra hzero
            exact hrest ⟨hreq, by omega, hwaves, hactive, hauto⟩
          exact ⟨.hook, _, if_pos hhooks, Or.inl halone⟩
      · obtain ⟨⟨x, type⟩, hx⟩ := exists_mem_of_ne_nil _ hactive
        rcases h.types _ (Or.inl hx) with rfl | rfl
        · exact ⟨.finishInit x, _, if_pos hx, Or.inl halone⟩
        · exact ⟨.finishApply x, _, if_pos hx, Or.inl halone⟩
    · obtain ⟨x, hx⟩ := exists_mem_of_ne_nil _ hauto
      obtain ⟨m, hm, rfl, -, -⟩ := h.supported x (Or.inl (h.logged x (Or.inr hx)))
      by_cases hexec : canExecute P s.statuses m = true
      · exact ⟨.checkAutoApply m, _, by rw [step, if_pos ⟨hx, hm⟩, if_pos hexec],
          Or.inr fun _ ↦ trivial⟩
      · exact ⟨.checkAutoApply m, _, by rw [step, if_pos ⟨hx, hm⟩, if_neg hexec],
          Or.inr fun _ ↦ trivial⟩
  · obtain ⟨wave, hwave⟩ := exists_mem_of_ne_nil _ hwaves
    exact ⟨.commitWave wave, _, if_pos hwave, Or.inr fun _ ↦ trivial⟩

/-! ### Coming to rest -/

def Steady (P : Project H) : Prop :=
  ∀ (st : Statuses), ∀ m ∈ P.modules, m.enabled = true → varsChanged P st m.id = false

/-- What is left of a run that dispatches at most two tasks for each module. -/
def remaining (P : Project H) (s : State) : Nat :=
  4 * (2 * P.modules.length - s.dispatched.length) + (if s.requested then 2 else 0) +
    2 * s.hooks + s.waves.length + 3 * s.active.length + 2 * s.autoApply.length

private theorem remaining_lt {e : Event} (hst : step P s e = some t)
    (hle : t.dispatched.length ≤ 2 * P.modules.length) : remaining P t < remaining P s := by
  unfold remaining
  cases e with
  | deploy =>
    rw [step, Option.ite_none_right_eq_some] at hst
    cases hst.2
    simp only [hst.1, if_true, Bool.false_eq_true, if_false, length_append,
      length_singleton]
    omega
  | hook =>
    rw [step, Option.ite_none_right_eq_some] at hst
    cases hst.2
    have hpos := hst.1
    simp only [length_append, length_singleton]
    omega
  | commitWave wave =>
    rw [step, Option.ite_none_right_eq_some] at hst
    cases hst.2
    have hpos := length_pos_of_mem hst.1
    simp only [length_append, length_erase_of_mem hst.1] at hle ⊢
    omega
  | finishInit x =>
    rw [step, Option.ite_none_right_eq_some] at hst
    cases hst.2
    have hpos := length_pos_of_mem hst.1
    simp only [length_append, length_singleton, length_erase_of_mem hst.1]
    omega
  | checkAutoApply m =>
    rw [step, Option.ite_none_right_eq_some] at hst
    obtain ⟨⟨hx, -⟩, hst⟩ := hst
    have hpos := length_pos_of_mem hx
    split at hst
    · cases hst
      simp only [length_append, length_singleton, length_erase_of_mem hx] at hle ⊢
      omega
    · cases hst
      simp only [length_erase_of_mem hx]
      omega
  | finishApply x =>
    rw [step, Option.ite_none_right_eq_some] at hst
    cases hst.2
    have hpos := length_pos_of_mem hst.1
    simp only [length_erase_of_mem hst.1]
    omega

private theorem exists_atRest (hcaptured : OutputsCaptured P) (hsteady : Steady P)
    (hchain : ChainInv P s) (hwave : WaveInv P st s) :
    ∃ es t, Run (step P) (SoundWave P) s es t ∧ AtRest t := by
  refine Run.exists_done (P := fun s ↦ ChainInv P s ∧ WaveInv P st s) (μ := remaining P) ?_ ?_
    ⟨hchain, hwave⟩
  · intro a e b h hok hst
    exact ⟨chainInv_step h.1 hok hst, waveInv_step hcaptured h.2 hst⟩
  · intro a h hrest
    obtain ⟨e, b, hst, hsound⟩ := h.2.exists_step hrest
    have hok : SoundWave P a e := by
      rcases hsound with halone | hsound
      · cases e with
        | deploy => exact halone
        | hook => exact ⟨halone, fun m hm hen _ ↦ hsteady a.statuses m hm hen⟩
        | _ => trivial
      · exact hsound a
    exact ⟨e, b, hok, hst, remaining_lt hst (length_dispatched_le P (chainInv_step h.1 hok hst))⟩

/-! ### The order of a run -/

def AppliedBefore (st : Statuses) (past : List Event) (d : Nat) : Prop :=
  isApplied st d = true ∨ .finishApply d ∈ past

/-- What is applied, and what the modules in flight depend on, has been applied before. -/
structure OrderInv (P : Project H) (st : Statuses) (past : List Event) (s : State) : Prop where
  applied : ∀ d, isApplied s.statuses d = true → AppliedBefore st past d
  inFlight : ∀ x, x ∈ s.active.map Prod.fst ∨ x ∈ s.waves.flatten.map Prod.fst ∨ x ∈ s.autoApply →
    ∀ m ∈ P.modules, m.id = x → ∀ d ∈ m.dependencies, AppliedBefore st past d

omit [DecidableEq H] in
private theorem AppliedBefore.mono {past : List Event} {d : Nat} (h : AppliedBefore st past d)
    (e : Event) : AppliedBefore st (past ++ [e]) d :=
  h.imp id (mem_append_left _)

omit [DecidableEq H] in
private theorem OrderInv.keep {past : List Event} (h : OrderInv P st past s) (e : Event)
    (happlied : ∀ d, isApplied t.statuses d = true →
      isApplied s.statuses d = true ∨ e = .finishApply d)
    (hflight : ∀ x, x ∈ t.active.map Prod.fst ∨ x ∈ t.waves.flatten.map Prod.fst ∨ x ∈ t.autoApply →
      x ∈ s.active.map Prod.fst ∨ x ∈ s.waves.flatten.map Prod.fst ∨ x ∈ s.autoApply) :
    OrderInv P st (past ++ [e]) t := by
  constructor
  · intro d hd
    rcases happlied d hd with hd | rfl
    · exact (h.applied d hd).mono e
    · exact Or.inr (mem_append_right _ (mem_singleton_self _))
  · intro x hx m hm hid d hd
    exact (h.inFlight x (hflight x hx) m hm hid d hd).mono e

private theorem OrderInv.read {past : List Event} (h : OrderInv P st past s) (e : Event)
    (requested : Bool) (hooks : Nat) :
    OrderInv P st (past ++ [e]) { s with
      requested := requested, hooks := hooks, waves := s.waves ++ [currentWave P s] } := by
  constructor
  · exact fun d hd ↦ (h.applied d hd).mono e
  · intro x hx m hm hid d hd
    have hcases : (x ∈ s.active.map Prod.fst ∨ x ∈ s.waves.flatten.map Prod.fst ∨ x ∈ s.autoApply) ∨
        ∃ y ∈ currentWave P s, y.1 = x := by
      rcases hx with hx | hx | hx
      · exact Or.inl (Or.inl hx)
      · obtain ⟨y, hy, rfl⟩ := mem_map.mp hx
        rw [flatten_append, mem_append, flatten_singleton] at hy
        rcases hy with hy | hy
        · exact Or.inl (Or.inr (Or.inl (mem_map_of_mem hy)))
        · exact Or.inr ⟨y, hy, rfl⟩
      · exact Or.inl (Or.inr (Or.inr hx))
    rcases hcases with hx | ⟨y, hy, rfl⟩
    · exact (h.inFlight x hx m hm hid d hd).mono e
    · obtain ⟨k, hk, hidk, -, hdeps⟩ := depsApplied_of_mem hy
      rw [inj_on_of_nodup_map P.ids_nodup hk hm (hidk.trans hid.symm)] at hdeps
      exact (h.applied d (hdeps d hd)).mono e

private theorem orderInv_step {past : List Event} (h : OrderInv P st past s) {e : Event}
    (hst : step P s e = some t) : OrderInv P st (past ++ [e]) t := by
  cases e with
  | deploy | hook =>
    rw [step, Option.ite_none_right_eq_some] at hst
    cases hst.2
    exact h.read _ _ _
  | commitWave wave =>
    rw [step, Option.ite_none_right_eq_some] at hst
    cases hst.2
    refine h.keep _ (fun d hd ↦ Or.inl (isApplied_commitStatuses hd).1) ?_
    rintro x (hx | hx | hx)
    · rw [map_append, mem_append] at hx
      rcases hx with hx | hx
      · exact Or.inl hx
      · obtain ⟨y, hy, rfl⟩ := mem_map.mp hx
        exact Or.inr (Or.inl (mem_map_of_mem (mem_flatten.mpr ⟨wave, hst.1, hy⟩)))
    · obtain ⟨y, hy, rfl⟩ := mem_map.mp hx
      exact Or.inr (Or.inl (mem_map_of_mem (mem_flatten_of_erase hy)))
    · exact Or.inr (Or.inr hx)
  | finishInit x =>
    rw [step, Option.ite_none_right_eq_some] at hst
    cases hst.2
    refine h.keep _ (fun d hd ↦ Or.inl (isApplied_setStatus (by decide) hd).1) ?_
    rintro y (hy | hy | hy)
    · obtain ⟨z, hz, rfl⟩ := mem_map.mp hy
      exact Or.inl (mem_map_of_mem (mem_of_mem_erase hz))
    · exact Or.inr (Or.inl hy)
    · rcases mem_append.mp hy with hy | hy
      · exact Or.inr (Or.inr hy)
      · rw [mem_singleton.mp hy]
        exact Or.inl (mem_map_of_mem hst.1)
  | checkAutoApply m =>
    rw [step, Option.ite_none_right_eq_some] at hst
    obtain ⟨⟨hx, -⟩, hst⟩ := hst
    split at hst
    · cases hst
      refine h.keep _ (fun d hd ↦ Or.inl (isApplied_setStatus (by decide) hd).1) ?_
      rintro y (hy | hy | hy)
      · rw [map_append, mem_append] at hy
        rcases hy with hy | hy
        · exact Or.inl hy
        · rw [mem_singleton.mp hy]
          exact Or.inr (Or.inr hx)
      · exact Or.inr (Or.inl hy)
      · exact Or.inr (Or.inr (mem_of_mem_erase hy))
    · cases hst
      refine h.keep _ (fun d hd ↦ Or.inl hd) ?_
      rintro y (hy | hy | hy)
      · exact Or.inl hy
      · exact Or.inr (Or.inl hy)
      · exact Or.inr (Or.inr (mem_of_mem_erase hy))
  | finishApply x =>
    rw [step, Option.ite_none_right_eq_some] at hst
    cases hst.2
    refine h.keep _ (fun d hd ↦ ?_) ?_
    · by_cases hdx : d = x
      · exact Or.inr (by rw [hdx])
      · refine Or.inl ?_
        simpa only [isApplied, setStatus, Function.update_of_ne hdx] using hd
    · rintro y (hy | hy | hy)
      · obtain ⟨z, hz, rfl⟩ := mem_map.mp hy
        exact Or.inl (mem_map_of_mem (mem_of_mem_erase hz))
      · exact Or.inr (Or.inl hy)
      · exact Or.inr (Or.inr hy)

omit [DecidableEq H] in
private theorem orderInv_initial (st : Statuses) : OrderInv P st [] (initial st) := by
  refine ⟨fun d hd ↦ Or.inl hd, ?_⟩
  rintro x (hx | hx | hx) <;> cases hx

end Inv

/-! ### Plan and chain -/

section Plan

variable (names : Nat → Option String)

omit [DecidableEq H]

private theorem moduleIds_graphModules :
    Graph.moduleIds (graphModules P names) = P.modules.map ModuleSpec.id := by
  simp [Graph.moduleIds, graphModules, Function.comp_def]

private theorem acyclic_graphModules :
    Graph.Acyclic ((graphModules P names).filter Graph.GraphModule.enabled) := by
  obtain ⟨rank, hrank⟩ := P.acyclic
  refine ⟨rank, fun g hg d hd hids ↦ ?_⟩
  obtain ⟨hg, heng⟩ := mem_filter.mp hg
  obtain ⟨m, hm, rfl⟩ := mem_map.mp hg
  obtain ⟨g', hg', rfl⟩ := mem_map.mp hids
  obtain ⟨hg', heng'⟩ := mem_filter.mp hg'
  obtain ⟨m', hm', rfl⟩ := mem_map.mp hg'
  exact hrank m hm heng m' hm' heng' hd

private theorem mem_executionPlan {x : Nat} :
    x ∈ (executionPlan P names).modules ↔ ∃ m ∈ P.modules, m.enabled = true ∧ m.id = x := by
  have hnodup : (Graph.moduleIds (graphModules P names)).Nodup := by
    rw [moduleIds_graphModules]
    exact P.ids_nodup
  have hperm := Graph.modules_getExecutionPlan hnodup (acyclic_graphModules P names)
  rw [executionPlan, hperm.mem_iff]
  simp [Graph.moduleIds, graphModules, and_assoc]

private theorem deployProjectParallel_eq (st : Statuses) :
    deployProjectParallel P names st =
      if P.modules.any ModuleSpec.enabled then .ok (initial st)
      else .error (.keyError "total_modules") := by
  have hnodup : (Graph.moduleIds (graphModules P names)).Nodup := by
    rw [moduleIds_graphModules]
    exact P.ids_nodup
  have hany : (graphModules P names).any Graph.GraphModule.enabled =
      P.modules.any ModuleSpec.enabled := by
    simp [graphModules, any_map, Function.comp_def]
  rw [deployProjectParallel, executionPlan,
    Graph.dispatches_getExecutionPlan hnodup (acyclic_graphModules P names), hany]
  split
  · next heq =>
    split at heq
    · next h => rw [if_pos h]
    · cases heq
  · next heq => split at heq <;> cases heq
  · next heq =>
    split at heq
    · cases heq
    · next h =>
      cases heq
      rw [if_neg h]

end Plan

/-- Deploying a project of enabled modules with acyclic dependencies: the call goes ahead when
a module is enabled. In every run of the chain, however its waves overlap, only modules of the
plan are applied, each after all its dependencies; the chain stops only when the dispatcher
finds nothing left, and then a module of the plan is applied exactly when it is within reach,
by the run unless it was before. Where no module counts as changed, runs of waves that do not
overlap come to rest. -/
theorem deployProject_reaches_plan (hcaptured : OutputsCaptured P)
    (names : Nat → Option String) (st : Statuses) :
    (deployProjectParallel P names st =
      if P.modules.any ModuleSpec.enabled then .ok (initial st)
      else .error (.keyError "total_modules")) ∧
    (∀ es t, Run (step P) Free (initial st) es t →
      (∀ x, .finishApply x ∈ es → x ∈ (executionPlan P names).modules) ∧ InOrder P st es ∧
      (AtRest t ∨ ∃ e u, step P t e = some u) ∧
      (AtRest t → (∀ m ∈ P.modules, dispatchOf P [] t.statuses m = none) ∧
        ∀ x ∈ (executionPlan P names).modules,
          (isApplied t.statuses x = true ↔ Reaches P st x) ∧
          (Reaches P st x → isApplied st x = true ∨ .finishApply x ∈ es))) ∧
    (Steady P → ∀ es t, Run (step P) (SoundWave P) (initial st) es t →
      ∃ fs u, Run (step P) (SoundWave P) t fs u ∧ AtRest u) := by
  refine ⟨deployProjectParallel_eq P names st, ?_, ?_⟩
  · intro es t hrun
    have hwave : ∀ es t, Run (step P) Free (initial st) es t → WaveInv P st t := fun es t hrun ↦
      hrun.invariant (waveInv_initial st) fun a e b ha _ hst ↦ waveInv_step hcaptured ha hst
    have horder : ∀ es t, Run (step P) Free (initial st) es t → OrderInv P st es t :=
      fun es t hrun ↦ hrun.history (orderInv_initial st) fun past a e b ha _ hst ↦
        orderInv_step ha hst
    -- the state in which an apply finishes
    have hfinish : ∀ es₁ x es₂, es = es₁ ++ .finishApply x :: es₂ →
        ∃ a, Run (step P) Free (initial st) es₁ a ∧ (x, .apply) ∈ a.active := by
      intro es₁ x es₂ hes
      rw [hes] at hrun
      obtain ⟨a, h₁, h₂⟩ := hrun.of_append
      refine ⟨a, h₁, ?_⟩
      cases h₂ with
      | cons _ hst _ =>
        rw [step, Option.ite_none_right_eq_some] at hst
        exact hst.1
    refine ⟨?_, ?_, ?_, ?_⟩
    · intro x hx
      obtain ⟨es₁, es₂, hes⟩ := List.append_of_mem hx
      obtain ⟨a, h₁, hactive⟩ := hfinish es₁ x es₂ hes
      have ha := hwave es₁ a h₁
      obtain ⟨m, hm, hid, hen, -⟩ :=
        ha.supported x (Or.inl (ha.logged x (Or.inl (List.mem_map_of_mem hactive))))
      exact (mem_executionPlan P names).mpr ⟨m, hm, hen, hid⟩
    · intro es₁ x es₂ hes m hm hid d hd
      obtain ⟨a, h₁, hactive⟩ := hfinish es₁ x es₂ hes
      exact (horder es₁ a h₁).inFlight x (Or.inl (List.mem_map_of_mem hactive)) m hm hid d hd
    · by_cases hrest : AtRest t
      · exact Or.inl hrest
      · obtain ⟨e, u, hst, -⟩ := (hwave es t hrun).exists_step hrest
        exact Or.inr ⟨e, u, hst⟩
    · intro hrest
      have ht := hwave es t hrun
      refine ⟨fun m hm ↦ ht.nothing_left hrest hm, fun x _ ↦ ⟨⟨ht.reaches, ?_⟩, ?_⟩⟩
      · exact ht.applied_of_reaches hrest
      · exact fun hx ↦ (horder es t hrun).applied x (ht.applied_of_reaches hrest hx)
  · intro hsteady es t hrun
    have hchain : ChainInv P t :=
      hrun.invariant (chainInv_initial P st) fun a e b ha hok hst ↦ chainInv_step ha hok hst
    have hwave : WaveInv P st t :=
      hrun.invariant (waveInv_initial st) fun a e b ha _ hst ↦ waveInv_step hcaptured ha hst
    exact exists_atRest hcaptured hsteady hchain hwave

def twoLayers (firstEnabled captured : Bool) : Project Nat where
  modules := [⟨0, firstEnabled, []⟩, ⟨1, true, [0]⟩]
  ids_nodup := by simp
  acyclic := ⟨id, by simp⟩
  storedHash := fun _ ↦ none
  currentHash := fun _ _ ↦ 0
  outputsCaptured := fun _ ↦ captured

def layerByLayer : List Event :=
  [.deploy, .commitWave [(0, .init)], .finishInit 0, .checkAutoApply ⟨0, true, []⟩,
    .finishApply 0, .hook, .commitWave [(1, .init)], .finishInit 1, .checkAutoApply ⟨1, true, [0]⟩,
    .finishApply 1, .hook, .commitWave []]

theorem deployProject_reaches_plan_layerByLayer :
    ∃ t, Run (step (twoLayers true true)) Free (initial fun _ ↦ some notInitialized) layerByLayer
        t ∧
      AtRest t ∧ (executionPlan (twoLayers true true) fun _ ↦ none).modules = [0, 1] ∧
      InOrder (twoLayers true true) (fun _ ↦ some notInitialized) layerByLayer ∧
      ∀ x ∈ (executionPlan (twoLayers true true) fun _ ↦ none).modules,
        isApplied t.statuses x = true ↔
          Reaches (twoLayers true true) (fun _ ↦ some notInitialized) x := by
  have hcaptured : OutputsCaptured (twoLayers true true) := fun _ _ _ _ _ ↦ rfl
  have hrun : ∃ t, Run (step (twoLayers true true)) Free (initial fun _ ↦ some notInitialized)
      layerByLayer t ∧ AtRest t :=
    ⟨_, Run.free_iff_exec.mpr rfl, rfl, rfl, rfl, rfl, rfl⟩
  obtain ⟨t, hrun, hrest⟩ := hrun
  have h := (deployProject_reaches_plan (twoLayers true true) hcaptured (fun _ ↦ none)
    fun _ ↦ some notInitialized).2.1 layerByLayer t hrun
  refine ⟨t, hrun, hrest, rfl, h.2.1, fun x hx ↦ ?_⟩
  exact ((h.2.2.2 hrest).2 x hx).1

/-- The plan lists a module that rests on a disabled one, an applied module with nothing to
change, and a module whose dependency has no outputs; the chain applies none of them. -/
theorem deployProject_disagrees_with_plan :
    ¬ AgreesWithPlan (twoLayers false true) (fun _ ↦ none) (fun _ ↦ some notInitialized) ∧
      ¬ AgreesWithPlan (twoLayers true true) (fun _ ↦ none) (fun _ ↦ some applied) ∧
      ¬ AgreesWithPlan (twoLayers true false) (fun _ ↦ none)
        (fun x ↦ if x = 0 then some applied else some notInitialized) := by
  have hempty : ∀ (P : Project Nat) (st : Statuses) (es : List Event),
      (∃ t, Run (step P) Free (initial st) es t ∧ AtRest t) →
      1 ∈ (executionPlan P fun _ ↦ none).modules → .finishApply 1 ∉ es →
      ¬ AgreesWithPlan P (fun _ ↦ none) st := by
    rintro P st es ⟨t, hrun, hrest⟩ hmem hnot h
    exact hnot ((h es t hrun hrest 1).mpr hmem)
  refine ⟨hempty _ _ [.deploy, .commitWave []] ?_ ?_ ?_,
    hempty _ _ [.deploy, .commitWave []] ?_ ?_ ?_,
    hempty _ _ [.deploy, .commitWave [(1, .init)], .finishInit 1,
      .checkAutoApply ⟨1, true, [0]⟩] ?_ ?_ ?_⟩
  · exact ⟨_, Run.free_iff_exec.mpr rfl, rfl, rfl, rfl, rfl, rfl⟩
  · decide
  · decide
  · exact ⟨_, Run.free_iff_exec.mpr rfl, rfl, rfl, rfl, rfl, rfl⟩
  · decide
  · decide
  · exact ⟨_, Run.free_iff_exec.mpr rfl, rfl, rfl, rfl, rfl, rfl⟩
  · decide
  · decide

end BnkForge.Deploy
