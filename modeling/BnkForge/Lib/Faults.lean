import Mathlib.Data.List.Basic

/-!
# Computations that fail or stop

A computation on a state returns, raises an exception, or is stopped with its process; the state that
it has made so far stays. `Follows` compares a computation with a list of points, each with its effect
on some data of the state, at which it may end: the data afterwards are what the points up to the
first that does not pass have made of them.
-/

namespace Faults

variable {ε σ δ α β : Type}

/-- How a computation ends. -/
inductive Outcome (ε α : Type)
  | returned (a : α)
  | raised (e : ε)
  | stopped
  deriving DecidableEq, Repr

def Outcome.isReturned : Outcome ε α → Bool
  | returned _ => true
  | raised _ | stopped => false

/-- A computation: how it ends, and the state that it leaves. -/
def Proc (ε σ α : Type) : Type := σ → Outcome ε α × σ

namespace Proc

def bind (m : Proc ε σ α) (f : α → Proc ε σ β) : Proc ε σ β := fun s ↦
  match m s with
  | (.returned a, t) => f a t
  | (.raised e, t) => (.raised e, t)
  | (.stopped, t) => (.stopped, t)

instance : Monad (Proc ε σ) where
  pure a := fun s ↦ (.returned a, s)
  bind := bind

def raise (e : ε) : Proc ε σ α := fun s ↦ (.raised e, s)

/-- `try … except`. -/
def attempt (m : Proc ε σ α) (handler : ε → Proc ε σ α) : Proc ε σ α := fun s ↦
  match m s with
  | (.returned a, t) => (.returned a, t)
  | (.raised e, t) => handler e t
  | (.stopped, t) => (.stopped, t)

/-- `try … finally`. -/
def ensuring (m : Proc ε σ α) (cleanup : Proc ε σ Unit) : Proc ε σ α := fun s ↦
  match m s with
  | (.returned a, t) => bind cleanup (fun _ ↦ pure a) t
  | (.raised e, t) => bind cleanup (fun _ ↦ raise e) t
  | (.stopped, t) => (.stopped, t)

end Proc

/-- What happens at a point: it passes, an exception is raised, or the process stops, in the last
two cases with what is done there done or not. -/
inductive Fault
  | passes
  | raises (done : Bool)
  | stops (done : Bool)
  deriving DecidableEq, Repr

namespace Fault

def isPass : Fault → Bool
  | passes => true
  | raises _ | stops _ => false

def isStop : Fault → Bool
  | stops _ => true
  | passes | raises _ => false

def acts : Fault → Bool
  | passes => true
  | raises done | stops done => done

theorem acts_of_isPass {fault : Fault} (h : fault.isPass = true) : fault.acts = true := by
  cases fault with
  | passes => rfl
  | _ => cases h

/-- `f` is done. -/
def perform (fault : Fault) (e : ε) (f : σ → σ) : Proc ε σ Unit := fun s ↦
  let t := if fault.acts then f s else s
  match fault with
  | passes => (.returned (), t)
  | raises _ => (.raised e, t)
  | stops _ => (.stopped, t)

/-- `f` is done, and an exception is swallowed. -/
def tolerate (fault : Fault) (f : σ → σ) : Proc ε σ Unit := fun s ↦
  let t := if fault.acts then f s else s
  if fault.isStop then (.stopped, t) else (.returned (), t)

end Fault

/-- A point at which a computation may end, with what has been done to the data behind it. -/
structure Point (δ : Type) where
  passes : Bool
  effect : δ → δ

/-- What is done to the data where `f` is what the point is for. -/
def Fault.point (fault : Fault) (f : δ → δ) : Point δ := ⟨fault.isPass, if fault.acts then f else id⟩

def Point.check (passes : Bool) : Point δ := ⟨passes, id⟩

def leaves : List (Point δ) → δ → Bool × δ
  | [], d => (true, d)
  | p :: ps, d => if p.passes then leaves ps (p.effect d) else (false, p.effect d)

/-- The computation ends at the points and does to the data what is done at them. -/
def Follows (view : σ → δ) (m : Proc ε σ α) (ps : List (Point δ)) : Prop :=
  ∀ s, (m s).1.isReturned = (leaves ps (view s)).1 ∧ view (m s).2 = (leaves ps (view s)).2

/-- What the computation returns meets `P`. -/
def Yields (P : α → Prop) (m : Proc ε σ α) : Prop := ∀ s a t, m s = (.returned a, t) → P a

/-! ### Lists of points -/

section

variable {ps qs : List (Point δ)} {d : δ}

theorem leaves_append :
    leaves (ps ++ qs) d =
      if (leaves ps d).1 then leaves qs (leaves ps d).2 else (false, (leaves ps d).2) := by
  induction ps generalizing d with
  | nil => rfl
  | cons p ps ih =>
    rw [List.cons_append, leaves, leaves]
    split
    · exact ih
    · rfl

theorem leaves_fst : (leaves ps d).1 = ps.all Point.passes := by
  induction ps generalizing d with
  | nil => rfl
  | cons p ps ih =>
    rw [leaves, List.all_cons]
    split
    · next hp => rw [ih, hp, Bool.true_and]
    · next hp => rw [Bool.eq_false_iff.mpr hp, Bool.false_and]

/-- Points without an effect leave the data alone. -/
theorem leaves_of_neutral (h : ∀ p ∈ ps, p.effect = id) : leaves ps d = (ps.all Point.passes, d) := by
  rw [← leaves_fst (d := d)]
  refine Prod.ext rfl ?_
  induction ps with
  | nil => rfl
  | cons p ps ih =>
    have hd : p.effect d = d := by rw [h p List.mem_cons_self, id]
    rw [leaves, hd]
    split
    · exact ih fun q hq ↦ h q (List.mem_cons_of_mem _ hq)
    · rfl

/-- What is left behind two lists of points. -/
theorem leaves_append_snd : (leaves (ps ++ qs) d).2 =
    if ps.all Point.passes then (leaves qs (leaves ps d).2).2 else (leaves ps d).2 := by
  rw [leaves_append, leaves_fst]
  split <;> rfl

theorem leaves_point_cons {fault : Fault} {f : δ → δ} :
    (leaves (fault.point f :: ps) d).2 =
      if fault.acts then if fault.isPass then (leaves ps (f d)).2 else f d else d := by
  cases fault with
  | passes => rfl
  | raises done => cases done <;> rfl
  | stops done => cases done <;> rfl

/-- Points without an effect do not matter for the data behind them where they are passed. -/
theorem leaves_neutral_append (hneutral : ∀ p ∈ ps, p.effect = id) :
    (leaves (ps ++ qs) d).2 = if ps.all Point.passes then (leaves qs d).2 else d := by
  rw [leaves_append_snd, leaves_of_neutral hneutral]

end

/-! ### Values that are returned -/

namespace Yields

variable {P : α → Prop} {m : Proc ε σ α}

theorem pure {a : α} (h : P a) : Yields P (Pure.pure a : Proc ε σ α) := by
  rintro s b t ⟨⟩
  exact h

theorem raise (e : ε) : Yields P (Proc.raise e : Proc ε σ α) := fun _ _ _ h ↦ nomatch h

theorem bind {m : Proc ε σ β} {f : β → Proc ε σ α} (hf : ∀ b, Yields P (f b)) :
    Yields P (m >>= f) := by
  intro s a t h
  have hdef : (m >>= f) s = Proc.bind m f s := rfl
  rw [hdef, Proc.bind] at h
  rcases hm : m s with ⟨o, u⟩
  rw [hm] at h
  cases o with
  | returned b => exact hf b u a t h
  | raised e => cases h
  | stopped => cases h

theorem guard {c : Prop} [Decidable c] {e : ε} (hm : Yields P m) :
    Yields P (if c then Proc.raise e else m) := by
  split
  · exact raise e
  · exact hm

theorem attempt {handler : ε → Proc ε σ α} (hm : Yields P m) (hhandler : ∀ e, Yields P (handler e)) :
    Yields P (m.attempt handler) := by
  intro s a t h
  rw [Proc.attempt] at h
  rcases hms : m s with ⟨o, u⟩
  rw [hms] at h
  cases o with
  | returned b =>
    cases h
    exact hm s a t hms
  | raised e => exact hhandler e u a t h
  | stopped => cases h

theorem ensuring {cleanup : Proc ε σ Unit} (hm : Yields P m) : Yields P (m.ensuring cleanup) := by
  intro s a t h
  rw [Proc.ensuring] at h
  rcases hms : m s with ⟨o, u⟩
  rw [hms] at h
  cases o with
  | returned b =>
    exact bind (fun _ ↦ pure (hm s b u hms)) u a t h
  | raised e =>
    exact bind (fun _ ↦ raise e) u a t h
  | stopped => cases h

end Yields

/-! ### Computations and their points -/

section

variable {view : σ → δ} {m : Proc ε σ α} {f : α → Proc ε σ β} {ps qs : List (Point δ)}

namespace Follows

theorem pure (a : α) : Follows view (Pure.pure a : Proc ε σ α) [] := fun _ ↦ ⟨rfl, rfl⟩

/-- A computation that leaves the data alone. -/
theorem of_check {ok : Bool}
    (hm : ∀ s, (m s).1.isReturned = ok ∧ view (m s).2 = view s) : Follows view m [.check ok] := by
  intro s
  obtain ⟨hret, hview⟩ := hm s
  cases ok <;> exact ⟨hret, hview⟩

theorem pure_check (a : α) : Follows view (Pure.pure a : Proc ε σ α) [.check true] :=
  of_check fun _ ↦ ⟨rfl, rfl⟩

/-- A condition under which an exception is raised. -/
theorem guard {c : Prop} [Decidable c] {ok : Bool} {e : ε} (hm : Follows view m [.check ok]) :
    Follows view (if c then Proc.raise e else m) [.check (!decide c && ok)] := by
  by_cases hc : c
  · rw [if_pos hc]
    exact of_check fun _ ↦ ⟨by simp [Proc.raise, Outcome.isReturned, hc], rfl⟩
  · rw [if_neg hc, decide_eq_false hc, Bool.not_false, Bool.true_and]
    exact hm

/-- Behind an exception nothing is reached. -/
theorem raise_cons (e : ε) : Follows view (Proc.raise e : Proc ε σ α) (.check false :: ps) :=
  fun _ ↦ ⟨rfl, rfl⟩

theorem passed_cons (hm : Follows view m ps) : Follows view m (.check true :: ps) := hm

/-- A computation goes on with a value that it has returned. -/
theorem bind_of {P : α → Prop} (hm : Follows view m ps) (hP : Yields P m)
    (hf : ∀ a, P a → Follows view (f a) qs) :
    Follows view (m >>= f) (ps ++ qs) := by
  intro s
  obtain ⟨hret, hview⟩ := hm s
  have hdef : (m >>= f) s = Proc.bind m f s := rfl
  rw [hdef, Proc.bind, leaves_append]
  rcases hms : m s with ⟨o, t⟩
  rw [hms] at hret hview
  cases o with
  | returned a =>
    rw [← hret, ← hview]
    exact hf a (hP s a t hms) t
  | raised e =>
    rw [← hret, ← hview]
    exact ⟨rfl, rfl⟩
  | stopped =>
    rw [← hret, ← hview]
    exact ⟨rfl, rfl⟩

theorem bind (hm : Follows view m ps) (hf : ∀ a, Follows view (f a) qs) :
    Follows view (m >>= f) (ps ++ qs) :=
  hm.bind_of (fun _ _ _ _ ↦ trivial) fun a _ ↦ hf a

theorem bind_unit {m : Proc ε σ Unit} {f : Unit → Proc ε σ β} (hm : Follows view m ps)
    (hf : Follows view (f ()) qs) : Follows view (m >>= f) (ps ++ qs) :=
  hm.bind fun _ ↦ hf

/-- A handler that does not return and leaves the data alone changes nothing. -/
theorem attempt {handler : ε → Proc ε σ α} (hm : Follows view m ps)
    (hhandler : ∀ e s, (handler e s).1.isReturned = false ∧ view (handler e s).2 = view s) :
    Follows view (m.attempt handler) ps := by
  intro s
  obtain ⟨hret, hview⟩ := hm s
  rw [Proc.attempt]
  rcases hms : m s with ⟨o, t⟩
  rw [hms] at hret hview
  cases o with
  | returned a => exact ⟨hret, hview⟩
  | raised e =>
    obtain ⟨hret', hview'⟩ := hhandler e t
    exact ⟨hret'.trans hret, hview'.trans hview⟩
  | stopped => exact ⟨hret, hview⟩

/-- A cleanup that leaves the data alone is one more thing that may fail at the end. -/
theorem ensuring {cleanup : Proc ε σ Unit} (hm : Follows view m ps)
    (hcleanup : Follows view cleanup qs) (hneutral : ∀ q ∈ qs, q.effect = id) :
    Follows view (m.ensuring cleanup) (ps ++ qs) := by
  intro s
  obtain ⟨hret, hview⟩ := hm s
  rw [Proc.ensuring, leaves_append, leaves_of_neutral hneutral]
  rcases hms : m s with ⟨o, t⟩
  rw [hms] at hret hview
  obtain ⟨hret', hview'⟩ := hcleanup t
  rw [leaves_of_neutral hneutral] at hret' hview'
  cases o with
  | returned a =>
    rw [← hret, ← hview]
    simp only [Proc.bind]
    rcases hc : cleanup t with ⟨o, u⟩
    rw [hc] at hret' hview'
    cases o <;> exact ⟨hret', hview'⟩
  | raised e =>
    rw [← hret, ← hview]
    simp only [Proc.bind]
    rcases hc : cleanup t with ⟨o, u⟩
    rw [hc] at hview'
    cases o <;> exact ⟨rfl, hview'⟩
  | stopped =>
    rw [← hret, ← hview]
    exact ⟨rfl, rfl⟩

theorem perform {fault : Fault} {e : ε} {f : σ → σ} {g : δ → δ} (hfg : ∀ s, view (f s) = g (view s)) :
    Follows view (fault.perform e f) [fault.point g] := by
  intro s
  cases fault with
  | passes => exact ⟨rfl, hfg s⟩
  | raises done => cases done <;> simp [Fault.perform, Fault.point, leaves, Fault.isPass, Fault.acts,
      Outcome.isReturned, hfg]
  | stops done => cases done <;> simp [Fault.perform, Fault.point, leaves, Fault.isPass, Fault.acts,
      Outcome.isReturned, hfg]

theorem tolerate {fault : Fault} {f : σ → σ} (hf : ∀ s, view (f s) = view s) :
    Follows view (fault.tolerate f : Proc ε σ Unit) [.check (!fault.isStop)] := by
  intro s
  have hview : view (if fault.acts then f s else s) = view s := by
    split
    · exact hf s
    · rfl
  cases hstop : fault.isStop <;>
    simp [Fault.tolerate, hstop, leaves, Point.check, Outcome.isReturned, hview]

theorem perform_bind {fault : Fault} {e : ε} {g : σ → σ} {h : δ → δ} {f : Unit → Proc ε σ β}
    (hgh : ∀ s, view (g s) = h (view s)) (hf : Follows view (f ()) qs) :
    Follows view (fault.perform e g >>= f) (fault.point h :: qs) :=
  (perform hgh).bind_unit hf

theorem tolerate_bind {fault : Fault} {g : σ → σ} {f : Unit → Proc ε σ β}
    (hg : ∀ s, view (g s) = view s) (hf : Follows view (f ()) qs) :
    Follows view (fault.tolerate g >>= f) (.check (!fault.isStop) :: qs) :=
  (tolerate hg).bind_unit hf

end Follows

end

end Faults
