import BnkForge.Lib.Transition
import Mathlib.Logic.Function.Basic

/-!
# Programs that run side by side on one store

A program is a tree of operations on a store that it shares with other programs: it asks for an
operation and goes on with the answer. Programs run in any interleaving of their operations, and an
operation may have several outcomes, told apart by a choice.

`Safe` is the rule for one program: between its operations the others may change the store as the
rely relation says, and its own operations change it as the guarantee says. `Run.safe` puts the
programs together, and `Prog.eval` runs one program alone.
-/

namespace Interleave

open Transition

/-- A program with operations `Op`, where `o` is answered in `Res o`. -/
inductive Prog (Op : Type) (Res : Op → Type) (α : Type)
  | ret (a : α)
  | ask (o : Op) (next : Res o → Prog Op Res α)

namespace Prog

variable {Op : Type} {Res : Op → Type} {α β : Type}

/-- One program after another. -/
def bind : Prog Op Res α → (α → Prog Op Res β) → Prog Op Res β
  | .ret a, f => f a
  | .ask o next, f => .ask o fun r ↦ (next r).bind f

instance : Monad (Prog Op Res) where
  pure := .ret
  bind := bind

/-- A single operation. -/
def call (o : Op) : Prog Op Res (Res o) := .ask o .ret

/-- What a program has returned. -/
def result? : Prog Op Res α → Option α
  | .ret a => some a
  | .ask _ _ => none

@[simp] theorem pure_eq (a : α) : (pure a : Prog Op Res α) = .ret a := rfl

@[simp] theorem ret_bind (a : α) (f : α → Prog Op Res β) : (Prog.ret a >>= f) = f a := rfl

@[simp] theorem ask_bind (o : Op) (next : Res o → Prog Op Res α) (f : α → Prog Op Res β) :
    (Prog.ask o next >>= f) = .ask o fun r ↦ next r >>= f := rfl

@[simp] theorem call_bind (o : Op) (f : Res o → Prog Op Res β) :
    (call o >>= f) = .ask o f := rfl

end Prog

variable {σ ι γ α β : Type} {Op : Type} {Res : Op → Type}

/-- How program `i` is answered: the answer and the store after it, `none` where the operation has
no such outcome. -/
abbrev Handler (σ ι γ Op : Type) (Res : Op → Type) : Type :=
  ι → (o : Op) → γ → σ → Option (Res o × σ)

/-- The store and the programs as far as they have come. -/
structure World (σ ι α Op : Type) (Res : Op → Type) where
  store : σ
  threads : ι → Prog Op Res α

/-- Program `i` carries out its next operation with the outcome `c`. -/
def step [DecidableEq ι] (handle : Handler σ ι γ Op Res) (w : World σ ι α Op Res) (e : ι × γ) :
    Option (World σ ι α Op Res) :=
  match w.threads e.1 with
  | .ret _ => none
  | .ask o next =>
    (handle e.1 o e.2 w.store).map fun answer ↦
      ⟨answer.2, Function.update w.threads e.1 (next answer.1)⟩

/-- A guard on the operations, as a guard on the steps of a system of programs. -/
def Guarded (guard : σ → ι → Op → γ → Prop) (w : World σ ι α Op Res) (e : ι × γ) : Prop :=
  match w.threads e.1 with
  | .ret _ => True
  | .ask o _ => guard w.store e.1 o e.2

instance (guard : σ → ι → Op → γ → Prop) [∀ s i o c, Decidable (guard s i o c)]
    (w : World σ ι α Op Res) (e : ι × γ) : Decidable (Guarded guard w e) :=
  match h : w.threads e.1 with
  | .ret _ => isTrue (by simp only [Guarded, h])
  | .ask o _ => decidable_of_iff (guard w.store e.1 o e.2) (by simp only [Guarded, h])

/-- What one program relies on and what it guarantees. -/
structure Contract (σ ι γ Op : Type) where
  /-- What holds of the store at all times. -/
  inv : σ → Prop
  /-- The operations that are taken. -/
  guard : σ → ι → Op → γ → Prop
  /-- What the others may do between two operations of a program. -/
  rely : ι → σ → σ → Prop
  /-- What an operation of a program does. -/
  guarantee : ι → σ → σ → Prop

namespace Contract

/-- The relations of a contract fit together: what others do in sequence is covered, and what one
guarantees is what another relies on. -/
structure Coherent (C : Contract σ ι γ Op) : Prop where
  rely_refl : ∀ i s, C.rely i s s
  rely_trans : ∀ i s t u, C.rely i s t → C.rely i t u → C.rely i s u
  guarantee_rely : ∀ i j s t, i ≠ j → C.guarantee i s t → C.rely j s t

end Contract

section Safe

variable (handle : Handler σ ι γ Op Res) (C : Contract σ ι γ Op) (i : ι)

/-- From the store `s` on, each operation of the program keeps the invariant and the guarantee,
whatever the others do in between, and what it returns meets `Q`. -/
def Safe : Prog Op Res α → (α → σ → Prop) → σ → Prop
  | .ret a, Q, s => ∀ t, C.rely i s t → C.inv t → Q a t
  | .ask o next, Q, s => ∀ t, C.rely i s t → C.inv t → ∀ c r u, C.guard t i o c →
      handle i o c t = some (r, u) → C.inv u ∧ C.guarantee i t u ∧ Safe (next r) Q u

variable {handle C i} {p : Prog Op Res α} {Q Q' : α → σ → Prop} {s t : σ}

/-- The others may have been at the store. -/
theorem Safe.rely (hC : C.Coherent) (h : Safe handle C i p Q s) (hst : C.rely i s t) :
    Safe handle C i p Q t := by
  cases p with
  | ret a => exact fun u htu ↦ h u (hC.rely_trans _ _ _ _ hst htu)
  | ask o next => exact fun u htu ↦ h u (hC.rely_trans _ _ _ _ hst htu)

theorem Safe.mono (h : Safe handle C i p Q s) (hQ : ∀ a t, C.inv t → Q a t → Q' a t) :
    Safe handle C i p Q' s := by
  induction p generalizing s with
  | ret a => exact fun t hst ht ↦ hQ a t ht (h t hst ht)
  | ask o next ih =>
    intro t hst ht c r u hguard hstep
    obtain ⟨hu, hgu, hnext⟩ := h t hst ht c r u hguard hstep
    exact ⟨hu, hgu, ih r hnext⟩

/-- A sequence of programs is safe where the second is safe from what the first returns. -/
theorem Safe.bind {f : α → Prog Op Res β} {Q : β → σ → Prop} (hC : C.Coherent)
    (h : Safe handle C i p (fun a t ↦ Safe handle C i (f a) Q t) s) (hs : C.inv s) :
    Safe handle C i (p >>= f) Q s := by
  induction p generalizing s with
  | ret a => exact h s (hC.rely_refl i s) hs
  | ask o next ih =>
    intro t hst ht c r u hguard hstep
    obtain ⟨hu, hgu, hnext⟩ := h t hst ht c r u hguard hstep
    exact ⟨hu, hgu, ih r hnext hu⟩

/-- One program alone is safe under what it relies on: where the others do nothing, it has returned
what it should. -/
theorem Safe.result {a : α} (hC : C.Coherent) (h : Safe handle C i p Q s) (hs : C.inv s)
    (hp : p.result? = some a) : Q a s := by
  cases p with
  | ret b =>
    cases hp
    exact h s (hC.rely_refl i s) hs
  | ask o next => cases hp

end Safe

section Run

variable [DecidableEq ι] {handle : Handler σ ι γ Op Res} {C : Contract σ ι γ Op}
  {Q : ι → α → σ → Prop}

def World.AllSafe (handle : Handler σ ι γ Op Res) (C : Contract σ ι γ Op)
    (Q : ι → α → σ → Prop) (w : World σ ι α Op Res) : Prop :=
  C.inv w.store ∧ ∀ i, Safe handle C i (w.threads i) (Q i) w.store

/-- What an operation taken under the guard does. -/
theorem allSafe_step (hC : C.Coherent) {w w' : World σ ι α Op Res} {e : ι × γ}
    (h : w.AllSafe handle C Q) (hguard : Guarded C.guard w e) (hstep : step handle w e = some w') :
    w'.AllSafe handle C Q ∧ C.guarantee e.1 w.store w'.store := by
  obtain ⟨hinv, hsafe⟩ := h
  have hown := hsafe e.1
  simp only [Guarded] at hguard
  simp only [step] at hstep
  split at hstep
  · cases hstep
  · next o next hthread =>
    simp only [hthread] at hguard hown
    obtain ⟨⟨r, u⟩, hhandle, hw⟩ := Option.map_eq_some_iff.mp hstep
    obtain ⟨hu, hgu, hnext⟩ := hown w.store (hC.rely_refl _ _) hinv e.2 r u hguard hhandle
    subst hw
    refine ⟨⟨hu, fun j ↦ ?_⟩, hgu⟩
    by_cases hj : j = e.1
    · subst hj
      simpa only [Function.update_self] using hnext
    · simp only [Function.update_of_ne hj]
      exact (hsafe j).rely hC (hC.guarantee_rely _ _ _ _ (Ne.symm hj) hgu)

/-- In a run whose operations all meet the guard the programs stay safe. -/
theorem Run.safe (hC : C.Coherent) {w w' : World σ ι α Op Res} {es : List (ι × γ)}
    (hrun : Transition.Run (step handle) (Guarded C.guard) w es w') (h : w.AllSafe handle C Q) :
    w'.AllSafe handle C Q :=
  hrun.invariant h fun _ _ _ ha hok hst ↦ (allSafe_step hC ha hok hst).1

end Run

section Eval

variable {handle : Handler σ Unit γ Op Res}

/-- One program alone, with the outcomes of its operations in order: what it returns, or `none`
where it stops before, and the store. -/
def Prog.eval (handle : Handler σ Unit γ Op Res) : Prog Op Res α → List γ → σ → Option α × σ
  | .ret a, _, s => (some a, s)
  | .ask _ _, [], s => (none, s)
  | .ask o next, c :: cs, s =>
    match handle () o c s with
    | none => (none, s)
    | some (r, t) => (next r).eval handle cs t

/-- A program that runs alone keeps the invariant, wherever it stops, and returns what it should. -/
theorem Safe.eval {C : Contract σ Unit γ Op} {p : Prog Op Res α} {Q : α → σ → Prop} {s : σ}
    {cs : List γ} (hC : C.Coherent) (h : Safe handle C () p Q s) (hs : C.inv s)
    (hguard : ∀ t o, ∀ c ∈ cs, C.guard t () o c) :
    C.inv (p.eval handle cs s).2 ∧
      ∀ a, (p.eval handle cs s).1 = some a → Q a (p.eval handle cs s).2 := by
  induction p generalizing s cs with
  | ret a =>
    refine ⟨hs, fun b hb ↦ ?_⟩
    cases hb
    exact h s (hC.rely_refl _ _) hs
  | ask o next ih =>
    cases cs with
    | nil => exact ⟨hs, nofun⟩
    | cons c cs =>
      simp only [Prog.eval]
      split
      · exact ⟨hs, nofun⟩
      · next r t hstep =>
        obtain ⟨ht, -, hnext⟩ := h s (hC.rely_refl _ _) hs c r t
          (hguard s o c List.mem_cons_self) hstep
        exact ih r hnext ht fun u o d hd ↦ hguard u o d (List.mem_cons_of_mem _ hd)

end Eval

end Interleave
