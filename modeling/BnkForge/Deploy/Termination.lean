import Mathlib.Data.List.Nodup
import Mathlib.Data.List.Perm.Subperm
import BnkForge.Deploy.Wave

/-!
# Termination of the deploy chain

Every successful apply runs the whole first-wave dispatcher again. A module is dispatched a
second time when it is applied and still counts as changed, when two waves overlap, or when
a wave falls between an init and its auto-apply; in runs without these, each module is
dispatched at most once for each task type, so a run dispatches at most two tasks for each
module of the project.
-/

namespace BnkForge.Deploy

open ModuleStatus Transition List

variable {H : Type} [DecidableEq H] (P : Project H)

/-- No other worker is between reading the database and committing its dispatch. -/
def Alone (s : State) : Prop := s.waves = [] ∧ s.autoApply = []

def NoneChanged (s : State) : Prop :=
  ∀ m ∈ P.modules, m.enabled = true → isApplied s.statuses m.id = true →
    varsChanged P s.statuses m.id = false

/-- Waves do not overlap, and no wave run by a completion hook finds an enabled applied
module changed. -/
def SoundWave (s : State) : Event → Prop
  | .deploy => Alone s
  | .hook => Alone s ∧ NoneChanged P s
  | _ => True

instance (s : State) : Decidable (Alone s) := inferInstanceAs (Decidable (_ ∧ _))

instance (s : State) : Decidable (NoneChanged P s) :=
  inferInstanceAs (Decidable (∀ m ∈ P.modules, _))

instance (s : State) (e : Event) : Decidable (SoundWave P s e) :=
  match e with
  | .deploy => inferInstanceAs (Decidable (Alone s))
  | .hook => inferInstanceAs (Decidable (Alone s ∧ NoneChanged P s))
  | .commitWave _ | .finishInit _ | .checkAutoApply _ | .finishApply _ => .isTrue trivial

/-! ### Statuses after a commit -/

theorem commitStatuses_cases (st : Statuses) (wave : List Dispatch) (m : Nat) :
    commitStatuses st wave m = st m ∧ m ∉ wave.map Prod.fst ∨
      ∃ type, (m, type) ∈ wave ∧ commitStatuses st wave m = some (dispatchedStatus type) := by
  induction wave generalizing st with
  | nil => exact Or.inl ⟨rfl, nofun⟩
  | cons x wave ih =>
    obtain ⟨k, type⟩ := x
    rcases ih (setStatus st k (dispatchedStatus type)) with ⟨heq, hnot⟩ | ⟨type', hmem, heq⟩
    · by_cases hm : m = k
      · subst hm
        refine Or.inr ⟨type, mem_cons_self, ?_⟩
        rw [commitStatuses, heq, setStatus, Function.update_self]
      · refine Or.inl ⟨?_, ?_⟩
        · rw [commitStatuses, heq, setStatus, Function.update_of_ne hm]
        · rw [map_cons, mem_cons]
          exact fun h ↦ h.elim hm hnot
    · exact Or.inr ⟨type', mem_cons_of_mem _ hmem, heq⟩

/-! ### The invariant -/

/-- The modules held by an active task, by an init worker before its auto-apply check, or
by a wave before its commit. -/
def held (s : State) : List Nat :=
  s.active.map Prod.fst ++ s.autoApply ++ s.waves.flatten.map Prod.fst

/-- What holds along sound runs: no module is held twice, and what waves and init workers
are going to dispatch has not been dispatched. -/
structure ChainInv (s : State) : Prop where
  requested : s.requested = true →
    s.dispatched = [] ∧ s.active = [] ∧ s.waves = [] ∧ s.autoApply = [] ∧ s.hooks = 0
  oneWave : ∀ wave ∈ s.waves, s.waves = [wave]
  ofProject : ∀ x, x ∈ s.dispatched ∨ x ∈ s.waves.flatten →
    x.1 ∈ P.modules.map ModuleSpec.id ∧ (x.2 = .init ∨ x.2 = .apply)
  held : (held s).Nodup
  logNodup : s.dispatched.Nodup
  waveFresh : ∀ x ∈ s.waves.flatten, x ∉ s.dispatched
  waveInit : ∀ m, (m, .init) ∈ s.waves.flatten → s.statuses m = some notInitialized
  autoFresh : ∀ m ∈ s.autoApply, (m, .apply) ∉ s.dispatched
  initFresh : ∀ m, (m, .init) ∈ s.active → (m, .apply) ∉ s.dispatched
  applied : ∀ m, (m, .apply) ∈ s.dispatched →
    (m, .apply) ∈ s.active ∨ s.statuses m = some applied
  initialized : ∀ m, (m, .init) ∈ s.dispatched → s.statuses m ≠ some notInitialized

omit [DecidableEq H] in
theorem chainInv_initial (st : Statuses) : ChainInv P (initial st) := by
  constructor <;> simp [initial, Deploy.held]

section Step

omit [DecidableEq H]

variable {P} {s : State}

private theorem chainInv_scan [DecidableEq H] (hooks : Nat) (hinv : ChainInv P s)
    (halone : Alone s)
    (hfresh : ∀ x ∈ currentWave P s, x.2 = .apply → x ∉ s.dispatched) :
    ChainInv P { s with
      requested := false, hooks := hooks, waves := s.waves ++ [currentWave P s] } := by
  obtain ⟨hwaves, hauto⟩ := halone
  have hwave := fun x (hx : x ∈ currentWave P s) ↦ of_mem_dispatchFirstWave P.ids_nodup hx
  have hflat : (s.waves ++ [currentWave P s]).flatten = currentWave P s := by
    rw [hwaves]
    exact append_nil _
  have hinit : ∀ m, (m, TaskType.init) ∈ currentWave P s →
      s.statuses m = some notInitialized := by
    intro m hm
    rcases (hwave _ hm).2.2 with h | h
    · exact h.2
    · cases h
  have hnew : ∀ x ∈ currentWave P s, x ∉ s.dispatched := by
    intro x hx hlog
    rcases (hwave x hx).2.2 with ⟨htype, hst⟩ | htype
    · obtain ⟨m, type⟩ := x
      subst htype
      exact hinv.initialized m hlog hst
    · exact hfresh x hx htype hlog
  refine ⟨nofun, ?_, ?_, ?_, hinv.logNodup, ?_, ?_, ?_, hinv.initFresh, hinv.applied,
    hinv.initialized⟩
  · intro wave hmem
    rw [hwaves] at hmem ⊢
    rw [mem_singleton.mp hmem]
    rfl
  · intro x hx
    rw [hflat] at hx
    rcases hx with hx | hx
    · exact hinv.ofProject x (Or.inl hx)
    · refine ⟨(hwave x hx).1, ?_⟩
      exact (hwave x hx).2.2.imp And.left id
  · have hact : (s.active.map Prod.fst).Nodup := by
      have h := hinv.held
      rw [Deploy.held, append_assoc] at h
      exact (nodup_append.mp h).1
    rw [Deploy.held, hflat, hauto, append_nil]
    refine nodup_append.mpr ⟨hact, ?_, ?_⟩
    · exact P.ids_nodup.sublist (map_fst_dispatchFirstWave_sublist _ _)
    · intro m hm m' hm'
      obtain ⟨y, hy, rfl⟩ := mem_map.mp hm
      obtain ⟨x, hx, rfl⟩ := mem_map.mp hm'
      exact (hwave x hx).2.1 y hy
  · intro x hx
    rw [hflat] at hx
    exact hnew x hx
  · intro m hm
    rw [hflat] at hm
    exact hinit m hm
  · intro m hm
    rw [hauto] at hm
    cases hm

private theorem chainInv_commit {wave : List Dispatch} (hinv : ChainInv P s)
    (hmem : wave ∈ s.waves) :
    ChainInv P { s with
      statuses := commitStatuses s.statuses wave
      active := s.active ++ wave
      waves := s.waves.erase wave
      dispatched := s.dispatched ++ wave } := by
  have hone : s.waves = [wave] := hinv.oneWave wave hmem
  have hflat : s.waves.flatten = wave := by
    rw [hone]
    exact append_nil _
  have herase : s.waves.erase wave = [] := by
    rw [hone, erase_cons_head]
  have hheld := hinv.held
  rw [Deploy.held, hflat] at hheld
  have hwaveNodup : (wave.map Prod.fst).Nodup := (nodup_append.mp hheld).2.1
  have hapart : ∀ x ∈ wave, ∀ y ∈ s.active, y.1 ≠ x.1 := by
    intro x hx y hy
    apply (nodup_append.mp hheld).2.2
    · exact mem_append_left _ (mem_map_of_mem hy)
    · exact mem_map_of_mem hx
  have hfresh : ∀ x ∈ wave, x ∉ s.dispatched := by
    intro x hx
    exact hinv.waveFresh x (hflat.symm ▸ hx)
  have htypes : ∀ {m type type'}, (m, type) ∈ wave → (m, type') ∈ wave → type = type' := by
    intro m type type' h h'
    have := inj_on_of_nodup_map hwaveNodup h h' rfl
    exact congrArg Prod.snd this
  have hinitStatus : ∀ m, (m, TaskType.init) ∈ wave → s.statuses m = some notInitialized := by
    intro m hm
    exact hinv.waveInit m (hflat.symm ▸ hm)
  -- a module of the wave that was dispatched for apply would be active or applied
  have hinitApply : ∀ m, (m, TaskType.init) ∈ wave → (m, TaskType.apply) ∉ s.dispatched := by
    intro m hm hlog
    rcases hinv.applied m hlog with hact | hst
    · exact hapart _ hm _ hact rfl
    · rw [hinitStatus m hm] at hst
      cases hst
  refine ⟨?_, ?_, ?_, ?_, ?_, ?_, ?_, ?_, ?_, ?_, ?_⟩
  · intro hreq
    rw [(hinv.requested hreq).2.2.1] at hmem
    cases hmem
  · intro w hw
    rw [herase] at hw
    cases hw
  · intro x hx
    rw [herase] at hx
    rcases hx with hx | hx
    · rcases mem_append.mp hx with hx | hx
      · exact hinv.ofProject x (Or.inl hx)
      · exact hinv.ofProject x (Or.inr (hflat.symm ▸ hx))
    · cases hx
  · have hperm : (Deploy.held { s with
        statuses := commitStatuses s.statuses wave
        active := s.active ++ wave
        waves := s.waves.erase wave
        dispatched := s.dispatched ++ wave }).Perm
          (s.active.map Prod.fst ++ s.autoApply ++ wave.map Prod.fst) := by
      simp only [Deploy.held, herase, flatten_nil, map_nil, append_nil,
        map_append, append_assoc]
      exact perm_append_comm.append_left _
    exact hperm.nodup_iff.mpr hheld
  · refine nodup_append.mpr ⟨hinv.logNodup, List.Nodup.of_map _ hwaveNodup, ?_⟩
    rintro x hx y hy rfl
    exact hfresh x hy hx
  · intro x hx
    rw [herase] at hx
    cases hx
  · intro m hm
    rw [herase] at hm
    cases hm
  · intro m hm hlog
    rcases mem_append.mp hlog with hlog | hlog
    · exact hinv.autoFresh m hm hlog
    · refine (nodup_append.mp hheld).2.2 m ?_ m (mem_map_of_mem hlog) rfl
      exact mem_append_right _ hm
  · intro m hm hlog
    rcases mem_append.mp hm with hm | hm
    · rcases mem_append.mp hlog with hlog | hlog
      · exact hinv.initFresh m hm hlog
      · exact hapart _ hlog _ hm rfl
    · rcases mem_append.mp hlog with hlog | hlog
      · exact hinitApply m hm hlog
      · cases htypes hm hlog
  · intro m hlog
    rcases mem_append.mp hlog with hlog | hlog
    · rcases commitStatuses_cases s.statuses wave m with ⟨heq, -⟩ | ⟨type, hm, -⟩
      · refine (hinv.applied m hlog).imp (mem_append_left _) fun hst ↦ ?_
        exact heq.trans hst
      · exfalso
        rcases (hinv.ofProject _ (Or.inr (hflat.symm ▸ hm))).2 with rfl | rfl
        · exact hinitApply m hm hlog
        · exact hfresh _ hm hlog
    · exact Or.inl (mem_append_right _ hlog)
  · intro m hlog
    change commitStatuses s.statuses wave m ≠ some notInitialized
    rcases commitStatuses_cases s.statuses wave m with ⟨heq, hnot⟩ | ⟨type, -, heq⟩
    · rcases mem_append.mp hlog with hlog | hlog
      · rw [heq]
        exact hinv.initialized m hlog
      · exact absurd (mem_map_of_mem hlog) hnot
    · rw [heq]
      cases type <;> nofun

private theorem setStatus_cases (st : Statuses) (k : Nat) (status : ModuleStatus) (m : Nat) :
    m = k ∧ setStatus st k status m = some status ∨ m ≠ k ∧ setStatus st k status m = st m := by
  by_cases hm : m = k
  · subst hm
    exact Or.inl ⟨rfl, Function.update_self ..⟩
  · exact Or.inr ⟨hm, Function.update_of_ne hm ..⟩

private theorem map_fst_perm_erase {active : List Dispatch} {m : Nat} {type : TaskType}
    (h : (m, type) ∈ active) :
    (active.map Prod.fst).Perm (m :: (active.erase (m, type)).map Prod.fst) :=
  (perm_cons_erase h).map Prod.fst

private theorem chainInv_finishInit {m : Nat} (hinv : ChainInv P s)
    (hmem : (m, TaskType.init) ∈ s.active) :
    ChainInv P { s with
      statuses := setStatus s.statuses m .initialized
      active := s.active.erase (m, .init)
      autoApply := s.autoApply ++ [m] } := by
  have hfresh : (m, TaskType.apply) ∉ s.dispatched := hinv.initFresh m hmem
  have hwave : ∀ type, (m, type) ∉ s.waves.flatten := by
    intro type htype
    refine (nodup_append.mp hinv.held).2.2 m ?_ m (mem_map_of_mem htype) rfl
    exact mem_append_left _ (mem_map_of_mem hmem)
  refine ⟨?_, hinv.oneWave, hinv.ofProject, ?_, hinv.logNodup, hinv.waveFresh, ?_, ?_, ?_, ?_,
    ?_⟩
  · intro hreq
    rw [(hinv.requested hreq).2.1] at hmem
    cases hmem
  · have hperm : (s.active.map Prod.fst ++ s.autoApply ++ s.waves.flatten.map Prod.fst).Perm
        ((s.active.erase (m, .init)).map Prod.fst ++ (s.autoApply ++ [m]) ++
          s.waves.flatten.map Prod.fst) := by
      refine List.Perm.append_right _ ?_
      refine ((map_fst_perm_erase hmem).append_right _).trans ?_
      rw [← append_assoc]
      exact (perm_append_singleton _ _).symm
    exact hperm.nodup_iff.mp hinv.held
  · intro k hk
    rcases setStatus_cases s.statuses m .initialized k with ⟨rfl, -⟩ | ⟨-, heq⟩
    · exact absurd hk (hwave _)
    · exact heq.trans (hinv.waveInit k hk)
  · intro k hk
    rcases mem_append.mp hk with hk | hk
    · exact hinv.autoFresh k hk
    · rw [mem_singleton.mp hk]
      exact hfresh
  · intro k hk
    exact hinv.initFresh k (mem_of_mem_erase hk)
  · intro k hlog
    rcases setStatus_cases s.statuses m .initialized k with ⟨rfl, -⟩ | ⟨-, heq⟩
    · exact absurd hlog hfresh
    · refine (hinv.applied k hlog).imp (fun hact ↦ ?_) heq.trans
      exact (mem_erase_of_ne (by simp)).mpr hact
  · intro k hlog
    change setStatus s.statuses m .initialized k ≠ some notInitialized
    rcases setStatus_cases s.statuses m .initialized k with ⟨-, heq⟩ | ⟨-, heq⟩
    · rw [heq]
      nofun
    · rw [heq]
      exact hinv.initialized k hlog

private theorem chainInv_finishApply {m : Nat} (hinv : ChainInv P s)
    (hmem : (m, TaskType.apply) ∈ s.active) :
    ChainInv P { s with
      statuses := setStatus s.statuses m .applied
      active := s.active.erase (m, .apply)
      hooks := s.hooks + 1 } := by
  have hwave : ∀ type, (m, type) ∉ s.waves.flatten := by
    intro type htype
    refine (nodup_append.mp hinv.held).2.2 m ?_ m (mem_map_of_mem htype) rfl
    exact mem_append_left _ (mem_map_of_mem hmem)
  refine ⟨?_, hinv.oneWave, hinv.ofProject, ?_, hinv.logNodup, hinv.waveFresh, ?_,
    hinv.autoFresh, ?_, ?_, ?_⟩
  · intro hreq
    rw [(hinv.requested hreq).2.1] at hmem
    cases hmem
  · refine hinv.held.sublist ?_
    refine List.Sublist.append_right (List.Sublist.append_right ?_ _) _
    exact erase_sublist.map Prod.fst
  · intro k hk
    rcases setStatus_cases s.statuses m .applied k with ⟨rfl, -⟩ | ⟨-, heq⟩
    · exact absurd hk (hwave _)
    · exact heq.trans (hinv.waveInit k hk)
  · intro k hk
    exact hinv.initFresh k (mem_of_mem_erase hk)
  · intro k hlog
    rcases setStatus_cases s.statuses m .applied k with ⟨-, heq⟩ | ⟨hne, heq⟩
    · exact Or.inr heq
    · refine (hinv.applied k hlog).imp (fun hact ↦ ?_) heq.trans
      exact (mem_erase_of_ne (by simp [hne])).mpr hact
  · intro k hlog
    change setStatus s.statuses m .applied k ≠ some notInitialized
    rcases setStatus_cases s.statuses m .applied k with ⟨-, heq⟩ | ⟨-, heq⟩
    · rw [heq]
      nofun
    · rw [heq]
      exact hinv.initialized k hlog

private theorem chainInv_autoApply {m : Nat} (hinv : ChainInv P s) (hmem : m ∈ s.autoApply)
    (hproject : m ∈ P.modules.map ModuleSpec.id) :
    ChainInv P { s with
      statuses := setStatus s.statuses m .applying
      active := s.active ++ [(m, .apply)]
      autoApply := s.autoApply.erase m
      dispatched := s.dispatched ++ [(m, .apply)] } := by
  have hfresh : (m, TaskType.apply) ∉ s.dispatched := hinv.autoFresh m hmem
  have hwave : ∀ type, (m, type) ∉ s.waves.flatten := by
    intro type htype
    refine (nodup_append.mp hinv.held).2.2 m ?_ m (mem_map_of_mem htype) rfl
    exact mem_append_right _ hmem
  have hactive : ∀ type, (m, type) ∉ s.active := by
    intro type htype
    exact (nodup_append.mp (nodup_append.mp hinv.held).1).2.2 m
      (mem_map_of_mem htype) m hmem rfl
  have hnodupAuto : s.autoApply.Nodup :=
    (nodup_append.mp (nodup_append.mp hinv.held).1).2.1
  refine ⟨?_, hinv.oneWave, ?_, ?_, ?_, ?_, ?_, ?_, ?_, ?_, ?_⟩
  · intro hreq
    rw [(hinv.requested hreq).2.2.2.1] at hmem
    cases hmem
  · intro x hx
    rcases hx with hx | hx
    · rcases mem_append.mp hx with hx | hx
      · exact hinv.ofProject x (Or.inl hx)
      · rw [mem_singleton.mp hx]
        exact ⟨hproject, Or.inr rfl⟩
    · exact hinv.ofProject x (Or.inr hx)
  · have hperm : (s.active.map Prod.fst ++ s.autoApply ++ s.waves.flatten.map Prod.fst).Perm
        ((s.active ++ [(m, TaskType.apply)]).map Prod.fst ++ s.autoApply.erase m ++
          s.waves.flatten.map Prod.fst) := by
      refine List.Perm.append_right _ ?_
      rw [map_append, append_assoc]
      exact (perm_cons_erase hmem).append_left _
    exact hperm.nodup_iff.mp hinv.held
  · refine nodup_append.mpr ⟨hinv.logNodup, nodup_singleton _, ?_⟩
    rintro x hx y hy rfl
    exact hfresh (mem_singleton.mp hy ▸ hx)
  · intro x hx hlog
    rcases mem_append.mp hlog with hlog | hlog
    · exact hinv.waveFresh x hx hlog
    · exact hwave _ (mem_singleton.mp hlog ▸ hx)
  · intro k hk
    rcases setStatus_cases s.statuses m .applying k with ⟨rfl, -⟩ | ⟨-, heq⟩
    · exact absurd hk (hwave _)
    · exact heq.trans (hinv.waveInit k hk)
  · intro k hk hlog
    rcases mem_append.mp hlog with hlog | hlog
    · exact hinv.autoFresh k (mem_of_mem_erase hk) hlog
    · cases mem_singleton.mp hlog
      exact (hnodupAuto.mem_erase_iff.mp hk).1 rfl
  · intro k hk hlog
    rcases mem_append.mp hk with hk | hk
    · rcases mem_append.mp hlog with hlog | hlog
      · exact hinv.initFresh k hk hlog
      · cases mem_singleton.mp hlog
        exact hactive _ hk
    · cases mem_singleton.mp hk
  · intro k hlog
    rcases mem_append.mp hlog with hold | hlog
    · rcases setStatus_cases s.statuses m .applying k with ⟨rfl, -⟩ | ⟨-, heq⟩
      · exact absurd hold hfresh
      · exact (hinv.applied k hold).imp (mem_append_left _) heq.trans
    · exact Or.inl (mem_append_right _ hlog)
  · intro k hlog
    change setStatus s.statuses m .applying k ≠ some notInitialized
    rcases setStatus_cases s.statuses m .applying k with ⟨-, heq⟩ | ⟨-, heq⟩
    · rw [heq]
      nofun
    · rw [heq]
      rcases mem_append.mp hlog with hlog | hlog
      · exact hinv.initialized k hlog
      · cases mem_singleton.mp hlog

private theorem chainInv_skipAutoApply {m : Nat} (hinv : ChainInv P s) :
    ChainInv P { s with autoApply := s.autoApply.erase m } := by
  refine ⟨?_, hinv.oneWave, hinv.ofProject, ?_, hinv.logNodup, hinv.waveFresh, hinv.waveInit,
    ?_, hinv.initFresh, hinv.applied, hinv.initialized⟩
  · intro hreq
    obtain ⟨hlog, hactive, hwaves, hauto, hhooks⟩ := hinv.requested hreq
    refine ⟨hlog, hactive, hwaves, ?_, hhooks⟩
    rw [hauto]
    rfl
  · refine hinv.held.sublist ?_
    exact (erase_sublist.append_left _).append_right _
  · intro k hk
    exact hinv.autoFresh k (mem_of_mem_erase hk)

theorem chainInv_step [DecidableEq H] {t : State} {e : Event} (hinv : ChainInv P s)
    (hok : SoundWave P s e) (h : step P s e = some t) : ChainInv P t := by
  cases e with
  | deploy =>
    rw [step] at h
    split at h
    · next hreq =>
      cases h
      refine chainInv_scan _ hinv hok fun x _ _ ↦ ?_
      rw [(hinv.requested hreq).1]
      nofun
    · cases h
  | hook =>
    rw [step] at h
    split at h
    · next hhooks =>
      cases h
      have hreq : s.requested = false := by
        by_contra hne
        rw [Bool.not_eq_false] at hne
        have := (hinv.requested hne).2.2.2.2
        omega
      have hscan := chainInv_scan (s.hooks - 1) hinv hok.1 ?_
      · rw [← hreq] at hscan
        exact hscan
      · rintro ⟨m, type⟩ hx rfl hlog
        -- what was dispatched is active, hence skipped, or applied and unchanged
        have hnot := not_isApplied_of_mem_dispatchFirstWave P.ids_nodup hok.2 hx
        rcases hinv.applied m hlog with hact | hst
        · exact (of_mem_dispatchFirstWave P.ids_nodup hx).2.1 _ hact rfl
        · rw [isApplied, hst] at hnot
          cases hnot
    · cases h
  | commitWave wave =>
    rw [step] at h
    split at h
    · next hmem =>
      cases h
      exact chainInv_commit hinv hmem
    · cases h
  | finishInit m =>
    rw [step] at h
    split at h
    · next hmem =>
      cases h
      exact chainInv_finishInit hinv hmem
    · cases h
  | checkAutoApply m =>
    rw [step] at h
    split at h
    · next hmem =>
      split at h
      · cases h
        exact chainInv_autoApply hinv hmem.1 (mem_map_of_mem hmem.2)
      · cases h
        exact chainInv_skipAutoApply hinv
    · cases h
  | finishApply m =>
    rw [step] at h
    split at h
    · next hmem =>
      cases h
      exact chainInv_finishApply hinv hmem
    · cases h

end Step

/-! ### Bounded dispatch -/

/-- A run that dispatches at most `bound` tasks, no module twice for apply. -/
def DispatchBounded (bound : Nat) (t : State) : Prop :=
  t.dispatched.length ≤ bound ∧ ∀ m, t.dispatched.count (m, .apply) ≤ 1

omit [DecidableEq H] in
theorem length_dispatched_le {t : State} (hinv : ChainInv P t) :
    t.dispatched.length ≤ 2 * P.modules.length := by
  have hsub : t.dispatched ⊆
      P.modules.map (fun m ↦ (m.id, TaskType.init)) ++
        P.modules.map (fun m ↦ (m.id, TaskType.apply)) := by
    rintro ⟨m, type⟩ hx
    obtain ⟨hm, htype⟩ := hinv.ofProject _ (Or.inl hx)
    obtain ⟨spec, hspec, rfl⟩ := mem_map.mp hm
    rcases htype with rfl | rfl
    · exact mem_append_left _ (mem_map.mpr ⟨spec, hspec, rfl⟩)
    · exact mem_append_right _ (mem_map.mpr ⟨spec, hspec, rfl⟩)
  have hle := (subperm_of_subset hinv.logNodup hsub).length_le
  rw [length_append, length_map, length_map] at hle
  omega

def oneModuleProject (storedHash : Option Nat) : Project Nat where
  modules := [⟨1, true, []⟩]
  ids_nodup := by simp
  acyclic := ⟨fun _ ↦ 0, by simp⟩
  storedHash := fun _ ↦ storedHash
  currentHash := fun _ _ ↦ 1
  outputsCaptured := fun _ ↦ true

def cleanDeploy : List Event :=
  [.deploy, .commitWave [(1, .init)], .finishInit 1, .checkAutoApply ⟨1, true, []⟩,
    .finishApply 1, .hook, .commitWave []]

/-- One turn of the chain on an applied module whose stored hash is out of date. -/
def redeploy : List Event := [.hook, .commitWave [(1, .apply)], .finishApply 1]

/-- The module is applied again and its hook is about to run. -/
def Redeploys (n : Nat) (s : State) : Prop :=
  s.active = [] ∧ s.hooks = 1 ∧ s.waves = [] ∧ s.statuses 1 = some applied ∧
    s.dispatched.length = n

private theorem redeploys_succ {n : Nat} {s : State} (h : Redeploys n s) :
    ∃ t, exec (step (oneModuleProject (some 0))) s redeploy = some t ∧ Redeploys (n + 1) t := by
  obtain ⟨hactive, hhooks, hwaves, hst, hlen⟩ := h
  have hwave : currentWave (oneModuleProject (some 0)) s = [(1, .apply)] := by
    simp [currentWave, dispatchFirstWave, dispatchOf, oneModuleProject, isApplied, varsChanged,
      depsReady, hactive, hst]
  refine ⟨{ s with
    statuses := setStatus (setStatus s.statuses 1 applying) 1 applied
    active := [], waves := [], dispatched := s.dispatched ++ [(1, .apply)] }, ?_, ?_⟩
  · simp [exec, redeploy, step, hwave, hhooks, hwaves, hactive, commitStatuses, dispatchedStatus]
  · refine ⟨rfl, hhooks, rfl, rfl, ?_⟩
    simp [hlen]

private theorem redeploys_forever (n : Nat) :
    ∃ es t, Run (step (oneModuleProject (some 0))) Free (initial fun _ ↦ some applied) es t ∧
      Redeploys (n + 1) t := by
  induction n with
  | zero =>
    refine ⟨[.deploy, .commitWave [(1, .apply)], .finishApply 1], _,
      Run.free_iff_exec.mpr rfl, ?_⟩
    exact ⟨rfl, rfl, rfl, rfl, rfl⟩
  | succ n ih =>
    obtain ⟨es, s, hrun, hs⟩ := ih
    obtain ⟨t, hexec, ht⟩ := redeploys_succ hs
    exact ⟨es ++ redeploy, t, hrun.append (Run.free_iff_exec.mpr hexec), ht⟩

end BnkForge.Deploy
