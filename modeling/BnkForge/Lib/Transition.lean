import Mathlib.Data.List.Basic

/-!
# Runs of event-driven transition systems

A system is a partial step function: `none` says that the event is not enabled.
`exec` evaluates a list of events and `Run` is the same notion as a relation, with a
guard `ok` that every step taken has to meet in the state before it.
The invariant rules below are the only place where runs are inducted over.
-/

namespace Transition

universe u v

variable {σ : Type u} {ε : Type v}

/-- Evaluate the events from left to right, failing at the first event not enabled. -/
def exec (step : σ → ε → Option σ) : σ → List ε → Option σ
  | s, [] => some s
  | s, e :: es => (step s e).bind fun t ↦ exec step t es

/-- The guard that every step meets. -/
def Free : σ → ε → Prop := fun _ _ ↦ True

instance (s : σ) (e : ε) : Decidable (Free s e) := inferInstanceAs (Decidable True)

/-- The step function with the events that miss the guard disabled. -/
def guarded (step : σ → ε → Option σ) (ok : σ → ε → Prop) [∀ s e, Decidable (ok s e)] :
    σ → ε → Option σ :=
  fun s e ↦ if ok s e then step s e else none

/-- A finite run all of whose steps meet the guard `ok` in the state before the step. -/
inductive Run (step : σ → ε → Option σ) (ok : σ → ε → Prop) : σ → List ε → σ → Prop
  | nil (s : σ) : Run step ok s [] s
  | cons {s t u : σ} {e : ε} {es : List ε} (hok : ok s e) (hstep : step s e = some t)
      (hrun : Run step ok t es u) : Run step ok s (e :: es) u

/-- Every step that the events take from `s` is related by `Q`. -/
def AllSteps (step : σ → ε → Option σ) (Q : σ → ε → σ → Prop) : σ → List ε → Prop
  | _, [] => True
  | s, e :: es => ∀ t, step s e = some t → Q s e t ∧ AllSteps step Q t es

/-- Every state that the events pass through from `s` satisfies `P`. -/
def Throughout (step : σ → ε → Option σ) (P : σ → Prop) (s : σ) (es : List ε) : Prop :=
  P s ∧ AllSteps step (fun _ _ t ↦ P t) s es

namespace Run

variable {step : σ → ε → Option σ} {ok : σ → ε → Prop} {s t u : σ} {e : ε}
  {es fs : List ε}

/-- A predicate preserved by every guarded step holds wherever a guarded run ends. -/
theorem invariant {P : σ → Prop} (hrun : Run step ok s es t) (hs : P s)
    (hstep : ∀ a e b, P a → ok a e → step a e = some b → P b) : P t := by
  induction hrun with
  | nil s => exact hs
  | cons hok hst _ ih => exact ih (hstep _ _ _ hs hok hst)

/-- Along an invariant, what holds of every event taken holds of all events of the run. -/
theorem forall_events {P : σ → Prop} {Q : ε → Prop} (hrun : Run step ok s es t) (hs : P s)
    (hstep : ∀ a e b, P a → ok a e → step a e = some b → P b ∧ Q e) : ∀ e ∈ es, Q e := by
  induction hrun with
  | nil s => exact nofun
  | cons hok hst _ ih =>
    intro e he
    obtain ⟨hb, hq⟩ := hstep _ _ _ hs hok hst
    rcases List.mem_cons.mp he with rfl | he
    · exact hq
    · exact ih hb e he

/-- A relation to the start preserved by every guarded step holds of the run's end. -/
theorem relates {R : σ → σ → Prop} (hrun : Run step ok s es t) (hrefl : ∀ a, R a a)
    (hstep : ∀ a e b c, ok a e → step a e = some b → R b c → R a c) : R s t := by
  induction hrun with
  | nil s => exact hrefl s
  | cons hok hst _ ih => exact hstep _ _ _ _ hok hst ih

/-- What holds of a state and the events behind it, kept by every guarded step, holds of the
end of a run and its events. -/
theorem history {J : List ε → σ → Prop} (hrun : Run step ok s es t) (hs : J [] s)
    (hstep : ∀ past a e b, J past a → ok a e → step a e = some b → J (past ++ [e]) b) :
    J es t := by
  suffices ∀ past, J past s → J (past ++ es) t from this [] hs
  clear hs
  induction hrun with
  | nil s =>
    intro past h
    rwa [List.append_nil]
  | cons hok hst _ ih =>
    intro past h
    have := ih (past ++ [_]) (hstep _ _ _ _ h hok hst)
    rwa [List.append_assoc] at this

/-- A run can be cut between two of its events. -/
theorem of_append (h : Run step ok s (es ++ fs) u) :
    ∃ t, Run step ok s es t ∧ Run step ok t fs u := by
  induction es generalizing s with
  | nil => exact ⟨s, nil s, h⟩
  | cons e es ih =>
    cases h with
    | cons hok hst hrun =>
      obtain ⟨t, h₁, h₂⟩ := ih hrun
      exact ⟨t, cons hok hst h₁, h₂⟩

/-- Runs compose. -/
theorem append (h₁ : Run step ok s es t) (h₂ : Run step ok t fs u) :
    Run step ok s (es ++ fs) u := by
  induction h₁ with
  | nil s => exact h₂
  | cons hok hst _ ih => exact cons hok hst (ih h₂)

theorem single (hok : ok s e) (hstep : step s e = some t) : Run step ok s [e] t :=
  cons hok hstep (nil t)

theorem free (h : Run step ok s es t) : Run step Free s es t := by
  induction h with
  | nil s => exact nil s
  | cons _ hst _ ih => exact cons trivial hst ih

/-- A free run meets a guard throughout, or it has a first step that does not. -/
theorem guarded_or_violates (h : Run step Free s es t) (ok : σ → ε → Prop) :
    Run step ok s es t ∨
      ∃ es₁ e es₂ a b, es = es₁ ++ e :: es₂ ∧ Run step ok s es₁ a ∧ ¬ ok a e ∧
        step a e = some b ∧ Run step Free b es₂ t := by
  induction h with
  | nil s => exact Or.inl (nil s)
  | @cons s b _ e es _ hst hrun ih =>
    by_cases hok : ok s e
    · rcases ih with ih | ⟨es₁, e', es₂, a, c, rfl, h₁, hv, hst', h₂⟩
      · exact Or.inl (cons hok hst ih)
      · exact Or.inr ⟨e :: es₁, e', es₂, a, c, rfl, cons hok hst h₁, hv, hst', h₂⟩
    · exact Or.inr ⟨[], e, es, s, b, rfl, nil s, hok, hst, hrun⟩

/-- The last step of a run all of whose steps are related by `Q`. -/
theorem allSteps_last {Q : σ → ε → σ → Prop} (h : Run step ok s es t)
    (hall : AllSteps step Q s (es ++ [e])) (hst : step t e = some u) : Q t e u := by
  induction h with
  | nil s => exact (hall u hst).1
  | cons _ hstep _ ih => exact ih (hall _ hstep).2 hst

/-- The state that such a run ends in is related by `Q` to the one before it. -/
theorem related_last {Q : σ → ε → σ → Prop} (h : Run step ok s (es ++ [e]) u)
    (hall : AllSteps step Q s (es ++ [e])) : ∃ t, Run step ok s es t ∧ Q t e u := by
  obtain ⟨t, hes, hlast⟩ := h.of_append
  cases hlast with
  | cons _ hst hnil =>
    cases hnil
    exact ⟨t, hes, hes.allSteps_last hall hst⟩

/-- A guarded run along an invariant takes only steps related by `Q` when every guarded step
from a state with the invariant is. -/
theorem allSteps {I : σ → Prop} {Q : σ → ε → σ → Prop} (h : Run step ok s es t) (hs : I s)
    (hstep : ∀ a e b, I a → ok a e → step a e = some b → I b ∧ Q a e b) :
    AllSteps step Q s es := by
  induction h with
  | nil s => trivial
  | cons hok hst _ ih =>
    intro c hc
    cases hst.symm.trans hc
    obtain ⟨hb, hq⟩ := hstep _ _ _ hs hok hst
    exact ⟨hq, ih hb⟩

/-- Along an invariant that the guarded steps keep, where the steps related by `Q` are the guarded
ones, the runs all of whose steps are related are the guarded runs. -/
theorem allSteps_iff_guarded {I : σ → Prop} {Q : σ → ε → σ → Prop} (h : Run step Free s es t)
    (hs : I s) (hok : ∀ a e b, I a → ok a e → step a e = some b → I b ∧ Q a e b)
    (hQ : ∀ a e b, I a → step a e = some b → Q a e b → ok a e) :
    AllSteps step Q s es ↔ Run step ok s es t := by
  refine ⟨fun hall ↦ ?_, fun hrun ↦ hrun.allSteps hs hok⟩
  induction h with
  | nil s => exact nil s
  | @cons s b _ e es _ hst _ ih =>
    obtain ⟨hq, hrest⟩ := hall b hst
    have hguard := hQ _ _ _ hs hst hq
    exact cons hguard hst (ih (hok _ _ _ hs hguard hst).1 hrest)

/-- Where a guard says, along an invariant, which steps are related by `Q`, the runs all of
whose steps are related are the guarded runs. -/
theorem allSteps_iff {I : σ → Prop} {Q : σ → ε → σ → Prop} (h : Run step Free s es t)
    (hs : I s) (hinv : ∀ a e b, I a → step a e = some b → I b)
    (hiff : ∀ a e b, I a → step a e = some b → (Q a e b ↔ ok a e)) :
    AllSteps step Q s es ↔ Run step ok s es t :=
  h.allSteps_iff_guarded hs
    (fun a e b ha hok hst ↦ ⟨hinv a e b ha hst, (hiff a e b ha hst).mpr hok⟩)
    fun a e b ha hst hq ↦ (hiff a e b ha hst).mp hq

/-- Along an invariant, where a guard says which steps from a good state end in a good state,
the runs through good states are the guarded runs. -/
theorem throughout_iff_of_invariant {I P : σ → Prop} (h : Run step Free s es t) (hI : I s)
    (hs : P s) (hinv : ∀ a e b, I a → step a e = some b → I b)
    (hiff : ∀ a e b, I a → P a → step a e = some b → (P b ↔ ok a e)) :
    Throughout step P s es ↔ Run step ok s es t := by
  rw [Throughout, and_iff_right hs]
  induction h with
  | nil s => exact ⟨fun _ ↦ nil s, fun _ ↦ trivial⟩
  | @cons s b _ e es _ hst _ ih =>
    have hIb := hinv _ _ _ hI hst
    constructor
    · intro hall
      obtain ⟨hb, hrest⟩ := hall b hst
      exact cons ((hiff _ _ _ hI hs hst).mp hb) hst ((ih hIb hb).mp hrest)
    · intro hrun c hc
      cases hrun with
      | cons hok hst' hrest =>
        cases hst.symm.trans hst'
        cases hst.symm.trans hc
        have hb := (hiff _ _ _ hI hs hst).mpr hok
        exact ⟨hb, (ih hIb hb).mpr hrest⟩

/-- Where a guard says which steps from a good state end in a good state, the runs through
good states are the guarded runs. -/
theorem throughout_iff {P : σ → Prop} (h : Run step Free s es t) (hs : P s)
    (hiff : ∀ a e b, P a → step a e = some b → (P b ↔ ok a e)) :
    Throughout step P s es ↔ Run step ok s es t :=
  throughout_iff_of_invariant (I := fun _ ↦ True) h trivial hs (fun _ _ _ _ _ ↦ trivial)
    fun a e b _ ↦ hiff a e b

/-- Where no step raises a measure and every step by an event in `p` lowers it, a run has at
most as many events in `p` as the measure says at its start. -/
theorem countP_le_measure {P : σ → Prop} {μ : σ → Nat} {p : ε → Bool} (h : Run step ok s es t)
    (hs : P s) (hinv : ∀ a e b, P a → ok a e → step a e = some b → P b)
    (hle : ∀ a e b, P a → ok a e → step a e = some b → μ b + (if p e then 1 else 0) ≤ μ a) :
    es.countP p + μ t ≤ μ s := by
  induction h with
  | nil s => simp
  | @cons s b _ e es hok hst _ ih =>
    have hb := ih (hinv _ _ _ hs hok hst)
    have hstep := hle _ _ _ hs hok hst
    rw [List.countP_cons]
    omega

/-- Where every state that is not done has a step that lowers a measure, runs can be
continued until they are done. -/
theorem exists_done {P done : σ → Prop} {μ : σ → Nat}
    (hinv : ∀ a e b, P a → ok a e → step a e = some b → P b)
    (hprogress : ∀ a, P a → ¬ done a → ∃ e b, ok a e ∧ step a e = some b ∧ μ b < μ a)
    (hs : P s) : ∃ es t, Run step ok s es t ∧ done t := by
  induction hn : μ s using Nat.strongRecOn generalizing s with
  | _ n ih =>
    by_cases hd : done s
    · exact ⟨[], s, nil s, hd⟩
    · obtain ⟨e, b, hok, hst, hlt⟩ := hprogress s hs hd
      obtain ⟨es, t, hrun, ht⟩ := ih (μ b) (hn ▸ hlt) (hinv s e b hs hok hst) rfl
      exact ⟨e :: es, t, cons hok hst hrun, ht⟩

theorem iff_exec [∀ s e, Decidable (ok s e)] :
    Run step ok s es t ↔ exec (guarded step ok) s es = some t := by
  constructor
  · intro h
    induction h with
    | nil s => rfl
    | cons hok hst _ ih => rw [exec, guarded, if_pos hok, hst, Option.bind_some, ih]
  · intro h
    induction es generalizing s with
    | nil =>
      cases Option.some.inj h
      exact nil _
    | cons e es ih =>
      obtain ⟨a, ha, hb⟩ := Option.bind_eq_some_iff.mp h
      unfold guarded at ha
      split at ha
      · next hok => exact cons hok ha (ih hb)
      · cases ha

/-- An evaluation that ends in a state with `P` is a run that does. -/
theorem exists_of_exec [∀ s e, Decidable (ok s e)] {P : σ → Prop} [DecidablePred P]
    (h : (exec (guarded step ok) s es).any (fun t ↦ decide (P t)) = true) :
    ∃ t, Run step ok s es t ∧ P t := by
  cases hexec : exec (guarded step ok) s es with
  | none =>
    rw [hexec] at h
    cases h
  | some t =>
    rw [hexec] at h
    exact ⟨t, iff_exec.mpr hexec, of_decide_eq_true h⟩

theorem free_iff_exec : Run step Free s es t ↔ exec step s es = some t := by
  have hguard : guarded step Free = step := by
    funext a e
    exact if_pos trivial
  rw [iff_exec, hguard]

/-- Where every event is enabled, the events are a run. -/
theorem exists_free (h : ∀ s e, ∃ t, step s e = some t) (s : σ) (es : List ε) :
    ∃ t, Run step Free s es t := by
  induction es generalizing s with
  | nil => exact ⟨s, nil s⟩
  | cons e es ih =>
    obtain ⟨b, hb⟩ := h s e
    obtain ⟨t, ht⟩ := ih b
    exact ⟨t, cons trivial hb ht⟩

/-- The events of a run lead to one state. -/
theorem unique {ok' : σ → ε → Prop} (h : Run step ok s es t) (h' : Run step ok' s es u) : t = u :=
  Option.some.inj ((free_iff_exec.mp h.free).symm.trans (free_iff_exec.mp h'.free))

end Run
end Transition
