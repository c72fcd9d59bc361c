import Mathlib.Data.List.Forall2

/-!
# Results of computations that can fail

What a computation in `Except` went through where it gives a result.
-/

namespace ExceptResult

open List

variable {α β : Type} {ε : Type}

theorem bind_eq_ok {x : Except ε α} {f : α → Except ε β} {b : β} :
    (x >>= f) = .ok b ↔ ∃ a, x = .ok a ∧ f a = .ok b := by
  cases x with
  | error e => exact ⟨nofun, fun ⟨_, h, _⟩ ↦ nomatch h⟩
  | ok a => exact ⟨fun h ↦ ⟨a, rfl, h⟩, fun ⟨_, h, hf⟩ ↦ by cases h; exact hf⟩

theorem pure_eq_ok {a b : α} : (pure a : Except ε α) = .ok b ↔ a = b :=
  ⟨Except.ok.inj, congrArg Except.ok⟩

theorem forall_bind_ok_iff {x : Except ε α} {f : α → Except ε β} {P : β → Prop} :
    (∀ b, (x >>= f) = .ok b → P b) ↔ ∀ a, x = .ok a → ∀ b, f a = .ok b → P b := by
  simp only [bind_eq_ok]
  exact ⟨fun h a ha b hb ↦ h b ⟨a, ha, hb⟩, fun h b ⟨a, ha, hb⟩ ↦ h a ha b hb⟩

theorem forall_pure_ok_iff {a : α} {P : α → Prop} : (∀ b, (pure a : Except ε α) = .ok b → P b) ↔ P a := by
  simp only [pure_eq_ok, forall_eq']

@[simp] theorem ok_bind {a : α} {f : α → Except ε β} : ((.ok a : Except ε α) >>= f) = f a := rfl

/-- What is made of the last result is made of the result of all. -/
theorem bind_bind_ok {γ : Type} {x : Except ε α} {f : α → Except ε β} {g : β → γ} :
    (x >>= fun a ↦ f a >>= fun b ↦ .ok (g b)) = (x >>= f).map g := by
  cases x with
  | error e => rfl
  | ok a =>
    change (f a >>= fun b ↦ .ok (g b)) = (f a).map g
    cases f a <;> rfl

theorem eq_ok_of_toOption {x : Except ε α} {a : α} (h : x.toOption = some a) : x = .ok a := by
  cases x with
  | error e => cases h
  | ok b => exact congrArg Except.ok (Option.some.inj h)

/-- A check of the result that comes out is a check of a result that there is. -/
theorem exists_of_any {x : Except ε α} {p : α → Bool} (h : x.toOption.any p = true) :
    ∃ a, x = .ok a ∧ p a = true := by
  cases x with
  | error e => cases h
  | ok a => exact ⟨a, rfl, h⟩

/-- What comes out of going through a list comes from its elements. -/
theorem mapM_eq_ok {f : α → Except ε β} {xs : List α} {ys : List β} :
    xs.mapM f = .ok ys ↔ List.Forall₂ (fun x y ↦ f x = .ok y) xs ys := by
  induction xs generalizing ys with
  | nil =>
    rw [mapM_nil, pure_eq_ok, forall₂_nil_left_iff]
    exact eq_comm
  | cons x xs ih =>
    rw [mapM_cons, bind_eq_ok, forall₂_cons_left_iff]
    simp only [bind_eq_ok, pure_eq_ok, ih]
    constructor
    · rintro ⟨y, hy, ys, hys, rfl⟩
      exact ⟨y, ys, hy, hys, rfl⟩
    · rintro ⟨y, ys, hy, hys, rfl⟩
      exact ⟨y, hy, ys, hys, rfl⟩

/-- A list is gone through where each element is. -/
theorem exists_mapM {f : α → Except ε β} {xs : List α} (h : ∀ x ∈ xs, ∃ y, f x = .ok y) :
    ∃ ys, xs.mapM f = .ok ys := by
  induction xs with
  | nil => exact ⟨[], rfl⟩
  | cons x xs ih =>
    obtain ⟨y, hy⟩ := h x mem_cons_self
    obtain ⟨ys, hys⟩ := ih fun z hz ↦ h z (mem_cons_of_mem x hz)
    refine ⟨y :: ys, ?_⟩
    rw [mapM_cons, hy, hys]
    rfl

theorem mapM_of_forall {f : α → Except ε β} {g : α → β} {xs : List α} (h : ∀ x ∈ xs, f x = .ok (g x)) :
    xs.mapM f = .ok (xs.map g) := by
  induction xs with
  | nil => rfl
  | cons x xs ih =>
    rw [mapM_cons, h x mem_cons_self, ih fun y hy ↦ h y (mem_cons_of_mem x hy)]
    rfl

/-- A list is gone through as a map where its elements are. -/
theorem mapM_eq_ok_map {f : α → Except ε β} {P : α → Prop} {g : α → β}
    (hf : ∀ x y, f x = .ok y ↔ P x ∧ y = g x) {xs : List α} {ys : List β} :
    xs.mapM f = .ok ys ↔ (∀ x ∈ xs, P x) ∧ ys = xs.map g := by
  induction xs generalizing ys with
  | nil =>
    rw [mapM_nil, pure_eq_ok]
    simp [eq_comm]
  | cons x xs ih =>
    rw [mapM_cons, bind_eq_ok, forall_mem_cons, map_cons]
    simp only [bind_eq_ok, pure_eq_ok, hf, ih]
    constructor
    · rintro ⟨_, ⟨hx, rfl⟩, _, ⟨hxs, rfl⟩, rfl⟩
      exact ⟨⟨hx, hxs⟩, rfl⟩
    · rintro ⟨⟨hx, hxs⟩, rfl⟩
      exact ⟨_, ⟨hx, rfl⟩, _, ⟨hxs, rfl⟩, rfl⟩

/-- What an element of a list is related to. -/
theorem exists_of_forall₂ {R : α → β → Prop} {xs : List α} {ys : List β}
    (h : List.Forall₂ R xs ys) {x : α} (hx : x ∈ xs) : ∃ y ∈ ys, R x y := by
  induction h with
  | nil => cases hx
  | cons hxy _ ih =>
    obtain rfl | hx := mem_cons.mp hx
    · exact ⟨_, mem_cons_self, hxy⟩
    · obtain ⟨y, hy, hR⟩ := ih hx
      exact ⟨y, mem_cons_of_mem _ hy, hR⟩

end ExceptResult
