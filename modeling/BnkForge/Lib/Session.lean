import BnkForge.Lib.Faults

/-!
# Sessions with a database

A session has a transaction open: what is committed and what the transaction sees are different rows until
a commit. A step of a transaction that fails leaves the transaction as it happens to be; a commit that
fails may have been made. `Safe` says of a computation that whatever it leaves committed is of a kind.
-/

namespace Faults

variable {ε σ δ α β : Type}

namespace Proc

/-- What has returned behind a computation. -/
theorem bind_eq_returned {m : Proc ε σ α} {f : α → Proc ε σ β} {s u : σ} {b : β} :
    (m >>= f) s = (.returned b, u) ↔ ∃ a t, m s = (.returned a, t) ∧ f a t = (.returned b, u) := by
  have hdef : (m >>= f) s = bind m f s := rfl
  rw [hdef, bind]
  rcases m s with ⟨o, t⟩
  cases o with
  | returned a =>
    refine ⟨fun h ↦ ⟨a, t, rfl, h⟩, ?_⟩
    rintro ⟨a', t', h, hf⟩
    cases h
    exact hf
  | raised e =>
    refine ⟨fun h ↦ ?_, ?_⟩
    · cases h
    · rintro ⟨_, _, h, -⟩
      cases h
  | stopped =>
    refine ⟨fun h ↦ ?_, ?_⟩
    · cases h
    · rintro ⟨_, _, h, -⟩
      cases h

/-- What has been raised by a computation or behind it. -/
theorem bind_eq_raised {m : Proc ε σ α} {f : α → Proc ε σ β} {s u : σ} {e : ε} :
    (m >>= f) s = (.raised e, u) ↔
      m s = (.raised e, u) ∨ ∃ a t, m s = (.returned a, t) ∧ f a t = (.raised e, u) := by
  have hdef : (m >>= f) s = bind m f s := rfl
  rw [hdef, bind]
  rcases m s with ⟨o, t⟩
  cases o with
  | returned a =>
    refine ⟨fun h ↦ .inr ⟨a, t, rfl, h⟩, ?_⟩
    rintro (h | ⟨a', t', h, hf⟩)
    · cases h
    · cases h
      exact hf
  | raised e' =>
    refine ⟨fun h ↦ .inl ?_, ?_⟩
    · cases h
      rfl
    · rintro (h | ⟨_, _, h, _⟩)
      · cases h
        rfl
      · cases h
  | stopped =>
    refine ⟨fun h ↦ ?_, ?_⟩
    · cases h
    · rintro (h | ⟨_, _, h, -⟩) <;> cases h

end Proc

/-- What is committed, and what the open transaction sees. -/
structure Session (δ : Type) where
  committed : δ
  working : δ

/-- How a step fails: what it raises, the transaction that it leaves, and whether a commit has been made. -/
structure Failed (ε δ : Type) where
  error : ε
  left : δ → δ
  committed : Bool

namespace Session

def rollback (s : Session δ) : Session δ := { s with working := s.committed }

def commit (s : Session δ) : Session δ := { s with committed := s.working }

def step (failed : Option (Failed ε δ)) (m : Proc ε (Session δ) α) : Proc ε (Session δ) α :=
  match failed with
  | none => m
  | some f => fun s ↦ (.raised f.error, { s with working := f.left s.working })

def commitStep (failed : Option (Failed ε δ)) : Proc ε (Session δ) Unit :=
  match failed with
  | none => fun s ↦ (.returned (), s.commit)
  | some f => fun s ↦ (.raised f.error, if f.committed then s.commit else s)

def rollbackStep : Proc ε (Session δ) Unit := fun s ↦ (.returned (), s.rollback)

/-- The rows of the transaction are changed. -/
def write (f : δ → α × δ) : Proc ε (Session δ) α := fun s ↦
  (.returned (f s.working).1, { s with working := (f s.working).2 })

/-- The rows of the transaction are changed, or nothing is. -/
def attemptWrite (f : δ → Except ε (α × δ)) : Proc ε (Session δ) α := fun s ↦
  match f s.working with
  | .error e => (.raised e, s)
  | .ok (a, d) => (.returned a, { s with working := d })

section

variable {failed : Option (Failed ε δ)} {m : Proc ε (Session δ) α} {s t : Session δ} {a : α}

theorem step_eq_returned (h : step failed m s = (.returned a, t)) : m s = (.returned a, t) := by
  cases failed with
  | none => exact h
  | some f => cases h

theorem commitStep_eq_returned (h : commitStep failed s = (.returned (), t)) : t = s.commit := by
  cases failed with
  | none =>
    cases h
    rfl
  | some f => cases h

theorem attemptWrite_eq_returned {f : δ → Except ε (α × δ)} (h : attemptWrite f s = (.returned a, t)) :
    f s.working = .ok (a, t.working) ∧ t.committed = s.committed := by
  unfold attemptWrite at h
  split at h
  · cases h
  · next hf =>
    cases h
    exact ⟨hf, rfl⟩

end

/-! ### What may be left committed -/

/-- Where `P` holds of what is committed and of the transaction, it holds of what is committed afterwards, and
of the transaction where the computation returns. -/
def Safe (P : δ → Prop) (m : Proc ε (Session δ) α) : Prop :=
  ∀ s, P s.committed → P s.working →
    P (m s).2.committed ∧ ((m s).1.isReturned = true → P (m s).2.working)

namespace Safe

variable {P : δ → Prop} {m : Proc ε (Session δ) α}

theorem pure (a : α) : Safe P (Pure.pure a : Proc ε (Session δ) α) := fun _ hc hw ↦ ⟨hc, fun _ ↦ hw⟩

theorem bind {f : α → Proc ε (Session δ) β} (hm : Safe P m) (hf : ∀ a, Safe P (f a)) : Safe P (m >>= f) := by
  intro s hc hw
  obtain ⟨hcommitted, hworking⟩ := hm s hc hw
  have hdef : (m >>= f) s = Proc.bind m f s := rfl
  rw [hdef, Proc.bind]
  rcases hms : m s with ⟨o, t⟩
  rw [hms] at hcommitted hworking
  cases o with
  | returned a => exact hf a t hcommitted (hworking rfl)
  | raised e => exact ⟨hcommitted, Bool.noConfusion⟩
  | stopped => exact ⟨hcommitted, Bool.noConfusion⟩

theorem step {failed : Option (Failed ε δ)} (hm : Safe P m) : Safe P (step failed m) := by
  cases failed with
  | none => exact hm
  | some f => exact fun s hc _ ↦ ⟨hc, nofun⟩

theorem commitStep {failed : Option (Failed ε δ)} : Safe P (commitStep failed) := by
  cases failed with
  | none => exact fun s _ hw ↦ ⟨hw, fun _ ↦ hw⟩
  | some f =>
    intro s hc hw
    refine ⟨?_, nofun⟩
    change P (if f.committed then s.commit else s).committed
    split
    · exact hw
    · exact hc

theorem write {f : δ → α × δ} (hf : ∀ d, P d → P (f d).2) :
    Safe P (write f : Proc ε (Session δ) α) := fun s hc hw ↦ ⟨hc, fun _ ↦ hf s.working hw⟩

theorem attemptWrite {f : δ → Except ε (α × δ)} (hf : ∀ d a d', P d → f d = .ok (a, d') → P d') :
    Safe P (attemptWrite f) := by
  intro s hc hw
  unfold Session.attemptWrite
  split
  · exact ⟨hc, nofun⟩
  · next hfs => exact ⟨hc, fun _ ↦ hf s.working _ _ hw hfs⟩

end Safe

end Session

end Faults
