import BnkForge.Lib.Hcl
import Mathlib.Tactic.Common

/-!
# Values pasted into HCL documents

A text between quotes is read as itself exactly if it is plain: it has no quotes, backslashes and line
breaks, and no template sequences in it (`plain_of_run_quoted`, `run_quoted_of_plain`). A document that
is made by pasting texts between quotes has the intended body for all values of expressions just if
all of them are plain (`forall_read_eq_iff`).
-/

namespace Hcl

open List

/-- The characters that end or escape in a quoted template. -/
abbrev IsSpecial (c : Char) : Prop := c = '"' ∨ c = '\\' ∨ c = '\n' ∨ c = '\r'

/-- Texts without quotes, backslashes, line breaks and template sequences. -/
structure Plain (v : Text) : Prop where
  notSpecial : ∀ c ∈ v, ¬ IsSpecial c
  noSequence : ∀ m, IsMarker m → ¬ [m, '\x7b'] <:+: v

variable {v w xs ys t u : Text} {parts : List Part} {q : Quoted} {m c : Char} {s s' : State}
  {out : List (Token (List Part))}

/-- The literal text that the scanner has read and not yet added to the parts. -/
def Quoted.pending : Quoted → Text
  | .marker m => [m]
  | .markers m => [m, m]
  | _ => []

/-- The scanner is not in an escape, and its markers are such. -/
def Quoted.IsLiteral : Quoted → Prop
  | .plain => True
  | .marker m => IsMarker m
  | .markers m => IsMarker m
  | _ => False

theorem run_append (s : State) (xs ys : Text) : run s (xs ++ ys) =
    (run s xs).bind fun r ↦ (run r.1 ys).map fun r' ↦ (r'.1, r.2 ++ r'.2) := by
  induction xs generalizing s with
  | nil => simp [run]
  | cons x xs ih =>
    rw [cons_append, run, run]
    cases step s x with
    | none => rfl
    | some r =>
      change ((run r.1 (xs ++ ys)).bind fun r' ↦ some (r'.1, r.2 ++ r'.2)) =
        ((run r.1 xs).bind fun r' ↦ some (r'.1, r.2 ++ r'.2)).bind _
      rw [ih]
      cases run r.1 xs with
      | none => rfl
      | some r' => cases hys : run r'.1 ys <;> simp [hys]

theorem plain_nil : Plain [] := ⟨by simp, by simp⟩

theorem Plain.of_cons (h : Plain (c :: v)) : Plain v :=
  ⟨fun d hd ↦ h.notSpecial d (mem_cons_of_mem c hd),
    fun m hm hseq ↦ h.noSequence m hm (hseq.trans (suffix_cons c v).isInfix)⟩

theorem plain_cons_iff (h : ¬ IsMarker c) : Plain (c :: v) ↔ ¬ IsSpecial c ∧ Plain v := by
  refine ⟨fun hv ↦ ⟨hv.notSpecial c mem_cons_self, hv.of_cons⟩, fun ⟨hc, hv⟩ ↦ ⟨?_, ?_⟩⟩
  · exact forall_mem_cons.mpr ⟨hc, hv.notSpecial⟩
  · intro m hm hseq
    rcases infix_cons_iff.mp hseq with hprefix | hseq
    · obtain ⟨hmc, -⟩ := cons_prefix_cons.mp hprefix
      exact h (hmc ▸ hm)
    · exact hv.noSequence m hm hseq

theorem IsMarker.ne_newline (h : IsMarker m) : m ≠ '\n' := by
  rcases h with rfl | rfl <;> decide

theorem IsMarker.ne_brace (h : IsMarker m) : m ≠ '\x7b' := by
  rcases h with rfl | rfl <;> decide

theorem IsMarker.ne_quote (h : IsMarker m) : '"' ≠ m := by
  rcases h with rfl | rfl <;> decide

theorem plain_marker_iff (h : IsMarker m) : Plain (m :: v) ↔ v.head? ≠ some '\x7b' ∧ Plain v := by
  have hspecial : ¬ IsSpecial m := by
    rcases h with rfl | rfl <;> decide
  constructor
  · refine fun hv ↦ ⟨fun hhead ↦ ?_, hv.of_cons⟩
    obtain ⟨v', rfl⟩ := head?_eq_some_iff.mp hhead
    exact hv.noSequence m h ⟨[], v', rfl⟩
  · rintro ⟨hhead, hv⟩
    refine ⟨forall_mem_cons.mpr ⟨hspecial, hv.notSpecial⟩, fun m' hm' hseq ↦ ?_⟩
    rcases infix_cons_iff.mp hseq with hprefix | hseq
    · obtain ⟨rfl, hbrace⟩ := cons_prefix_cons.mp hprefix
      obtain ⟨v', rfl⟩ := hbrace
      exact hhead rfl
    · exact hv.noSequence m' hm' hseq

/-- The characters that stand for themselves in front of all others. -/
abbrev IsOrdinary (c : Char) : Prop := ¬ IsSpecial c ∧ ¬ IsMarker c

theorem isOrdinary_of_isDigit (h : c.isDigit = true) : IsOrdinary c := by
  have hne : ∀ d : Char, d.isDigit = false → c ≠ d := by
    rintro d hd rfl
    exact Bool.false_ne_true (hd.symm.trans h)
  simp only [IsOrdinary, IsSpecial, IsMarker, not_or]
  exact ⟨⟨hne _ rfl, hne _ rfl, hne _ rfl, hne _ rfl⟩, hne _ rfl, hne _ rfl⟩

theorem ordinary_ofList (h : (v.all fun c ↦ decide (IsOrdinary c)) = true) :
    ∀ c ∈ (String.ofList v).toList, IsOrdinary c := by
  rw [String.toList_ofList]
  exact fun c hc ↦ of_decide_eq_true (List.all_eq_true.mp h c hc)

theorem plain_of_forall (h : ∀ c ∈ v, IsOrdinary c) : Plain v := by
  refine ⟨fun c hc ↦ (h c hc).1, fun m hm hseq ↦ ?_⟩
  exact (h m (hseq.subset mem_cons_self)).2 hm

/-- No template sequence begins in a text and goes on with a text that has no brace in front. -/
theorem plain_append_iff (h : w.head? ≠ some '\x7b') : Plain (v ++ w) ↔ Plain v ∧ Plain w := by
  induction v with
  | nil => simp [plain_nil]
  | cons c v ih =>
    rw [cons_append]
    by_cases hc : IsMarker c
    · have hhead : (v ++ w).head? ≠ some '\x7b' ↔ v.head? ≠ some '\x7b' := by
        cases v with
        | nil => simpa using h
        | cons d v => simp
      rw [plain_marker_iff hc, plain_marker_iff hc, hhead, ih, and_assoc]
    · rw [plain_cons_iff hc, plain_cons_iff hc, ih, and_assoc]

theorem plain_ordinary_append_iff (h : ∀ c ∈ v, IsOrdinary c) : Plain (v ++ w) ↔ Plain w := by
  induction v with
  | nil => rfl
  | cons c v ih =>
    obtain ⟨⟨hspecial, hmarker⟩, hv⟩ := forall_mem_cons.mp h
    rw [cons_append, plain_cons_iff hmarker, ih hv, and_iff_right hspecial]

theorem plain_append_ordinary_iff (h : ∀ c ∈ w, IsOrdinary c) (hhead : w.head? ≠ some '\x7b') :
    Plain (v ++ w) ↔ Plain v :=
  (plain_append_iff hhead).trans (and_iff_left (plain_of_forall h))

/-! ### Plain texts are read as themselves -/

theorem run_cons {r : State × List (Token (List Part))} (h : step s c = some r) :
    run s (c :: xs) = (run r.1 xs).map fun r' ↦ (r'.1, r.2 ++ r'.2) := by
  simp only [run, h, Option.bind_eq_bind, Option.bind_some]
  cases run r.1 xs <;> rfl

def withPending (parts : List Part) (q : Quoted) : List Part := (q.pending.map Part.char).reverse ++ parts

/-- A character that does not end or escape is added to the parts, or waits as a marker. -/
theorem exists_stepPlain (h : ¬ IsSpecial c) (parts : List Part) : ∃ parts' q,
    stepPlain parts c = some (.quoted parts' q, []) ∧ q.IsLiteral ∧
      withPending parts' q = Part.char c :: parts ∧ (q.pending = [] ∨ IsMarker c ∧ q.pending = [c]) := by
  simp only [IsSpecial, not_or] at h
  obtain ⟨hquote, hescape, hnewline, hreturn⟩ := h
  by_cases hm : IsMarker c
  · refine ⟨parts, .marker c, ?_, hm, rfl, .inr ⟨hm, rfl⟩⟩
    rw [stepPlain, if_neg hquote, if_neg (by simp [hnewline, hreturn]), if_neg hescape, if_pos hm]
  · refine ⟨.char c :: parts, .plain, ?_, trivial, rfl, .inl rfl⟩
    rw [stepPlain, if_neg hquote, if_neg (by simp [hnewline, hreturn]), if_neg hescape, if_neg hm]

/-- What waits behind a plain character is plain with what follows. -/
theorem plain_pending (h : Plain (c :: v)) (hq : q.pending = [] ∨ IsMarker c ∧ q.pending = [c]) :
    Plain (q.pending ++ v) := by
  rcases hq with hq | ⟨-, hq⟩
  · rw [hq]
    exact h.of_cons
  · rw [hq]
    exact h

/-- One character of a plain text. -/
theorem exists_stepQuoted (hq : q.IsLiteral) (h : Plain (q.pending ++ c :: v)) (parts : List Part) :
    ∃ parts' q', stepQuoted parts q c = some (.quoted parts' q', []) ∧ q'.IsLiteral ∧
      withPending parts' q' = Part.char c :: withPending parts q ∧ Plain (q'.pending ++ v) := by
  cases q with
  | plain =>
    obtain ⟨parts', q', hstep, hq', hparts, hpending⟩ :=
      exists_stepPlain (h.notSpecial c mem_cons_self) parts
    exact ⟨parts', q', hstep, hq', hparts, plain_pending h hpending⟩
  | marker m =>
    obtain ⟨hhead, hv⟩ := (plain_marker_iff hq).mp h
    have hbrace : c ≠ '\x7b' := fun heq ↦ hhead (congrArg some heq)
    by_cases hcm : c = m
    · refine ⟨parts, .markers m, ?_, hq, by rw [hcm]; rfl, ?_⟩
      · rw [stepQuoted, if_neg hbrace, if_pos hcm]
      · exact hcm ▸ h
    · obtain ⟨parts', q', hstep, hq', hparts, hpending⟩ :=
        exists_stepPlain (hv.notSpecial c mem_cons_self) (.char m :: parts)
      refine ⟨parts', q', ?_, hq', hparts, plain_pending hv hpending⟩
      rw [stepQuoted, if_neg hbrace, if_neg hcm, hstep]
  | markers m =>
    obtain ⟨hhead, hv⟩ := (plain_marker_iff hq).mp h.of_cons
    have hbrace : c ≠ '\x7b' := fun heq ↦ hhead (congrArg some heq)
    by_cases hcm : c = m
    · refine ⟨.char m :: parts, .markers m, ?_, hq, by rw [hcm]; rfl, ?_⟩
      · rw [stepQuoted, if_neg hbrace, if_pos hcm]
      · exact hcm ▸ h.of_cons
    · obtain ⟨parts', q', hstep, hq', hparts, hpending⟩ :=
        exists_stepPlain (hv.notSpecial c mem_cons_self) (.char m :: .char m :: parts)
      refine ⟨parts', q', ?_, hq', hparts, plain_pending hv hpending⟩
      rw [stepQuoted, if_neg hbrace, if_neg hcm, hstep]
  | escape => cases hq
  | code digits value => cases hq

/-- The quote ends a template. -/
theorem step_quote (hq : q.IsLiteral) (parts : List Part) :
    step (.quoted parts q) '"' = some (.code [], [.str (withPending parts q).reverse]) := by
  cases q with
  | plain => rfl
  | marker m => rw [step, stepQuoted, if_neg (by decide), if_neg (IsMarker.ne_quote hq)]; rfl
  | markers m => rw [step, stepQuoted, if_neg (by decide), if_neg (IsMarker.ne_quote hq)]; rfl
  | escape => cases hq
  | code digits value => cases hq

/-- A plain text is read as itself up to the quote behind it. -/
theorem run_quoted_of_plain (hq : q.IsLiteral) (h : Plain (q.pending ++ v)) (parts : List Part) :
    run (.quoted parts q) (v ++ ['"']) =
      some (.code [], [.str ((withPending parts q).reverse ++ v.map Part.char)]) := by
  induction v generalizing parts q with
  | nil =>
    rw [nil_append, run_cons (step_quote hq parts), map_nil, append_nil]
    rfl
  | cons c v ih =>
    obtain ⟨parts', q', hstep, hq', hparts, hplain⟩ := exists_stepQuoted hq h parts
    rw [cons_append, run_cons (s := .quoted parts q) hstep, ih hq' hplain, hparts]
    simp

/-! ### Other texts are not -/

/-- The markers of the scanner are such. -/
def Quoted.Valid : Quoted → Prop
  | .marker m => IsMarker m
  | .markers m => IsMarker m
  | _ => True

/-- The constant value `w` of a template that was read from here up to the end of `t`: it has no more
characters than were read, and as many only if all of them stand for themselves. -/
def ReadFrom (parts : List Part) (q : Quoted) (t w : Text) : Prop :=
  '\n' ∉ t ∧ ∃ w₀ : Text, parts.reverse = w₀.map Part.char ∧
    w.length ≤ w₀.length + q.pending.length + t.length ∧
    (w.length = w₀.length + q.pending.length + t.length → q.IsLiteral →
      w = w₀ ++ q.pending ++ t ∧ Plain (q.pending ++ t))

/-- The template ends in the text, and if its value is constant it is related to what was read. -/
def Closes (xs : Text) (out : List (Token (List Part))) (P : Text → Text → Prop) : Prop :=
  ∃ t u template out', xs = t ++ '"' :: u ∧ out = .str template :: out' ∧
    run (.code []) u = some (.code [], out') ∧ ∀ w : Text, template = w.map Part.char → P t w

theorem Closes.cons {P P' : Text → Text → Prop} (h : Closes xs out P') (hP : ∀ t w, P' t w → P (c :: t) w) :
    Closes (c :: xs) out P := by
  obtain ⟨t, u, template, out', rfl, hout, hrun, hvalue⟩ := h
  exact ⟨c :: t, u, template, out', rfl, hout, hrun, fun w hw ↦ hP t w (hvalue w hw)⟩

/-- What a step from one literal state to another one adds to the value. -/
structure Adds (parts : List Part) (q : Quoted) (c : Char) (parts' : List Part) (q' : Quoted) : Prop where
  valid : q'.Valid
  newline : c ≠ '\n'
  value : ∀ w₁ : Text, parts'.reverse = w₁.map Part.char → ∃ w₀ : Text, parts.reverse = w₀.map Part.char ∧
    w₁.length + q'.pending.length ≤ w₀.length + q.pending.length + 1 ∧
    (w₁.length + q'.pending.length = w₀.length + q.pending.length + 1 → q.IsLiteral →
      q'.IsLiteral ∧ w₁ ++ q'.pending = w₀ ++ q.pending ++ [c] ∧
        ∀ t, Plain (q'.pending ++ t) → Plain (q.pending ++ c :: t))

theorem ReadFrom.cons {parts' : List Part} {q' : Quoted} (hadds : Adds parts q c parts' q')
    (h : ReadFrom parts' q' t w) : ReadFrom parts q (c :: t) w := by
  obtain ⟨hnewline, w₁, hw₁, hle, heq⟩ := h
  obtain ⟨w₀, hw₀, hle₀, heq₀⟩ := hadds.value w₁ hw₁
  refine ⟨by simp [hnewline, hadds.newline.symm], w₀, hw₀, ?_, fun hlength hq ↦ ?_⟩
  · rw [length_cons]
    omega
  · rw [length_cons] at hlength
    obtain ⟨hq', hvalue, hplain⟩ := heq₀ (by omega) hq
    obtain ⟨rfl, ht⟩ := heq (by omega) hq'
    exact ⟨by simp [hvalue], hplain t ht⟩

theorem reverse_eq_map_cons {d : Char} (h : (Part.char d :: parts).reverse = w.map Part.char) :
    ∃ w₀ : Text, w = w₀ ++ [d] ∧ parts.reverse = w₀.map Part.char := by
  rw [reverse_cons] at h
  obtain ⟨w₀, w₁, rfl, hw₀, hw₁⟩ := map_eq_append_iff.mp h.symm
  obtain ⟨d', rfl, hd⟩ := map_eq_singleton_iff.mp hw₁
  exact ⟨w₀, by rw [Part.char.inj hd], hw₀.symm⟩

/-- A marker that waits, and a character behind it that is no brace. -/
theorem Adds.of_marker {parts' : List Part} {q' : Quoted} (h : Adds (.char m :: parts) .plain c parts' q')
    (hm : IsMarker m) (hc : c ≠ '\x7b') : Adds parts (.marker m) c parts' q' := by
  refine ⟨h.valid, h.newline, fun w₁ hw₁ ↦ ?_⟩
  obtain ⟨w, hw, hle, heq⟩ := h.value w₁ hw₁
  obtain ⟨w₀, rfl, hw₀⟩ := reverse_eq_map_cons hw
  refine ⟨w₀, hw₀, by simpa [Quoted.pending] using hle, fun hlength _ ↦ ?_⟩
  obtain ⟨hq', hvalue, hplain⟩ := heq (by simpa [Quoted.pending] using hlength) trivial
  refine ⟨hq', by simpa [Quoted.pending] using hvalue, fun t ht ↦ ?_⟩
  exact (plain_marker_iff hm).mpr ⟨by simpa using hc, hplain t ht⟩

/-- Another marker that waits. -/
theorem Adds.of_markers {parts' : List Part} {q' : Quoted}
    (h : Adds (.char m :: parts) (.marker m) c parts' q') (hm : IsMarker m) :
    Adds parts (.markers m) c parts' q' := by
  have hbrace := hm.ne_brace
  refine ⟨h.valid, h.newline, fun w₁ hw₁ ↦ ?_⟩
  obtain ⟨w, hw, hle, heq⟩ := h.value w₁ hw₁
  obtain ⟨w₀, rfl, hw₀⟩ := reverse_eq_map_cons hw
  refine ⟨w₀, hw₀, by simpa [Quoted.pending] using hle, fun hlength _ ↦ ?_⟩
  obtain ⟨hq', hvalue, hplain⟩ := heq (by simpa [Quoted.pending] using hlength) hm
  refine ⟨hq', by simpa [Quoted.pending] using hvalue, fun t ht ↦ ?_⟩
  exact (plain_marker_iff hm).mpr ⟨by simpa using hbrace, hplain t ht⟩

/-- A character behind characters that stand for themselves. -/
theorem stepPlain_cases (h : stepPlain parts c = some (s', out)) :
    (c = '"' ∧ s' = .code [] ∧ out = [.str parts.reverse]) ∨
      ∃ parts' q', s' = .quoted parts' q' ∧ out = [] ∧ Adds parts .plain c parts' q' := by
  unfold stepPlain at h
  split at h
  · next hc =>
    cases h
    exact .inl ⟨hc, rfl, rfl⟩
  next hquote =>
  split at h
  · cases h
  next hline =>
  obtain ⟨hnewline, hreturn⟩ := not_or.mp hline
  split at h
  · next hc =>
    cases h
    refine .inr ⟨parts, .escape, rfl, rfl, trivial, hnewline, fun w₁ hw₁ ↦ ⟨w₁, hw₁, ?_, ?_⟩⟩
    · simp [Quoted.pending]
    · simp [Quoted.pending]
  next hescape =>
  have hspecial : ¬ IsSpecial c := by simp [IsSpecial, hquote, hescape, hnewline, hreturn]
  split at h
  · next hm =>
    cases h
    refine .inr ⟨parts, .marker c, rfl, rfl, hm, hnewline, fun w₁ hw₁ ↦ ⟨w₁, hw₁, ?_, fun _ _ ↦ ?_⟩⟩
    · simp [Quoted.pending]
    · exact ⟨hm, by simp [Quoted.pending], fun t ht ↦ ht⟩
  · next hm =>
    cases h
    refine .inr ⟨_, .plain, rfl, rfl, trivial, hnewline, fun w₁ hw₁ ↦ ?_⟩
    obtain ⟨w₀, rfl, hw₀⟩ := reverse_eq_map_cons hw₁
    refine ⟨w₀, hw₀, by simp [Quoted.pending], fun _ _ ↦ ⟨trivial, by simp [Quoted.pending], fun t ht ↦ ?_⟩⟩
    exact (plain_cons_iff hm).mpr ⟨hspecial, ht⟩

/-- A character of an escape that adds nothing yet. -/
theorem Adds.of_pending {q' : Quoted} (hq : ¬ q.IsLiteral) (hv : q'.Valid) (hpending : q'.pending = [])
    (hc : c ≠ '\n') : Adds parts q c parts q' :=
  ⟨hv, hc, fun w hw ↦ ⟨w, hw, by rw [hpending]; simp; omega, fun _ h ↦ absurd h hq⟩⟩

/-- The last character of an escape. -/
theorem Adds.of_char {d : Char} (hq : ¬ q.IsLiteral) (hc : c ≠ '\n') :
    Adds parts q c (.char d :: parts) .plain := by
  refine ⟨trivial, hc, fun w hw ↦ ?_⟩
  obtain ⟨w₀, rfl, hw₀⟩ := reverse_eq_map_cons hw
  exact ⟨w₀, hw₀, by simp [Quoted.pending], fun _ h ↦ absurd h hq⟩

/-- The character behind a backslash. -/
theorem stepQuoted_escape (h : stepQuoted parts .escape c = some (s', out)) :
    ∃ parts' q', s' = .quoted parts' q' ∧ out = [] ∧ Adds parts .escape c parts' q' := by
  rw [stepQuoted] at h
  split at h
  · next hc =>
    cases h
    exact ⟨_, _, rfl, rfl, .of_pending id trivial rfl (by rw [hc]; decide)⟩
  split at h
  · next hc =>
    cases h
    exact ⟨_, _, rfl, rfl, .of_pending id trivial rfl (by rw [hc]; decide)⟩
  · obtain ⟨d, hd, heq⟩ := Option.map_eq_some_iff.mp h
    cases heq
    refine ⟨_, _, rfl, rfl, .of_char id ?_⟩
    rintro rfl
    cases hd

theorem stepQuoted_code {digits value : Nat} (h : stepQuoted parts (.code digits value) c = some (s', out)) :
    ∃ parts' q', s' = .quoted parts' q' ∧ out = [] ∧ Adds parts (.code digits value) c parts' q' := by
  rw [stepQuoted] at h
  obtain ⟨d, hd, heq⟩ := Option.map_eq_some_iff.mp h
  have hc : c ≠ '\n' := by
    rintro rfl
    cases hd
  split at heq <;> cases heq
  · exact ⟨_, _, rfl, rfl, .of_char id hc⟩
  · exact ⟨_, _, rfl, rfl, .of_pending id trivial rfl hc⟩

/-- A character of a template: it ends the template, it adds to its value, or it begins a sequence. -/
theorem stepQuoted_cases (hq : q.Valid) (h : stepQuoted parts q c = some (s', out)) :
    (c = '"' ∧ q.IsLiteral ∧ s' = .code [] ∧ out = [.str (withPending parts q).reverse]) ∨
      (∃ parts' q', s' = .quoted parts' q' ∧ out = [] ∧ Adds parts q c parts' q') ∨
        ∃ m, c = '\x7b' ∧ s' = .template parts m [] [] ∧ out = [] := by
  cases q with
  | plain =>
    rcases stepPlain_cases h with ⟨hc, hs, hout⟩ | hadds
    · exact .inl ⟨hc, trivial, hs, hout⟩
    · exact .inr (.inl hadds)
  | escape => exact .inr (.inl (stepQuoted_escape h))
  | code digits value => exact .inr (.inl (stepQuoted_code h))
  | marker m =>
    rw [stepQuoted] at h
    split at h
    · next hc =>
      cases h
      exact .inr (.inr ⟨m, hc, rfl, rfl⟩)
    next hc =>
    split at h
    · next hcm =>
      cases h
      have hnewline : c ≠ '\n' := hcm ▸ IsMarker.ne_newline hq
      refine .inr (.inl ⟨parts, .markers m, rfl, rfl, hq, hnewline, fun w₁ hw₁ ↦ ⟨w₁, hw₁, ?_, fun _ _ ↦ ?_⟩⟩)
      · simp [Quoted.pending]
      · exact ⟨hq, by simp [Quoted.pending, hcm], fun t ht ↦ hcm ▸ ht⟩
    · rcases stepPlain_cases h with ⟨hc, hs, hout⟩ | ⟨parts', q', hs, hout, hadds⟩
      · exact .inl ⟨hc, hq, hs, hout⟩
      · exact .inr (.inl ⟨parts', q', hs, hout, hadds.of_marker hq hc⟩)
  | markers m =>
    rw [stepQuoted] at h
    split at h
    · next hc =>
      cases h
      refine .inr (.inl ⟨_, .plain, rfl, rfl, trivial, by rw [hc]; decide, fun w₁ hw₁ ↦ ?_⟩)
      obtain ⟨w, rfl, hw⟩ := reverse_eq_map_cons hw₁
      obtain ⟨w₀, rfl, hw₀⟩ := reverse_eq_map_cons hw
      exact ⟨w₀, hw₀, by simp [Quoted.pending], by simp [Quoted.pending]⟩
    next hc =>
    split at h
    · next hcm =>
      cases h
      have hnewline : c ≠ '\n' := hcm ▸ IsMarker.ne_newline hq
      refine .inr (.inl ⟨_, .markers m, rfl, rfl, hq, hnewline, fun w₁ hw₁ ↦ ?_⟩)
      obtain ⟨w₀, rfl, hw₀⟩ := reverse_eq_map_cons hw₁
      refine ⟨w₀, hw₀, by simp [Quoted.pending], fun _ _ ↦ ⟨hq, by simp [Quoted.pending, hcm], fun t ht ↦ ?_⟩⟩
      have hbrace : (m :: c :: t).head? ≠ some '\x7b' := by simpa [← hcm] using hc
      exact (plain_marker_iff hq).mpr ⟨hbrace, hcm ▸ ht⟩
    · rcases stepPlain_cases h with ⟨hc, hs, hout⟩ | ⟨parts', q', hs, hout, hadds⟩
      · exact .inl ⟨hc, hq, hs, hout⟩
      · exact .inr (.inl ⟨parts', q', hs, hout, (hadds.of_marker hq hc).of_markers hq⟩)

/-- The first step of a run that ends. -/
theorem run_cons_eq_some {r : State × List (Token (List Part))} (h : run s (c :: xs) = some r) :
    ∃ s' out out', step s c = some (s', out) ∧ run s' xs = some (r.1, out') ∧ r.2 = out ++ out' := by
  obtain ⟨⟨s', out⟩, hstep, h⟩ := Option.bind_eq_some_iff.mp h
  obtain ⟨⟨s'', out'⟩, hrun, heq⟩ := Option.bind_eq_some_iff.mp h
  cases heq
  exact ⟨s', out, out', hstep, hrun, rfl⟩

theorem plain_pending_of_valid (hq : q.Valid) : Plain q.pending := by
  cases q with
  | marker m => exact (plain_marker_iff hq).mpr ⟨by simp, plain_nil⟩
  | markers m =>
    refine (plain_marker_iff hq).mpr ⟨?_, (plain_marker_iff hq).mpr ⟨by simp, plain_nil⟩⟩
    simpa using IsMarker.ne_brace hq
  | _ => exact plain_nil

/-- A template that is open ends in the text; inside of a sequence its value is not constant. -/
theorem closes (xs : Text) :
    (∀ parts q out, q.Valid → run (.quoted parts q) xs = some (.code [], out) →
      Closes xs out (ReadFrom parts q)) ∧
    (∀ parts m content nested out, run (.template parts m content nested) xs = some (.code [], out) →
      Closes xs out fun _ _ ↦ False) := by
  induction xs with
  | nil =>
    constructor
    · intro parts q out _ h
      cases h
    · intro parts m content nested out h
      cases h
  | cons c xs ih =>
    refine ⟨fun parts q out hq h ↦ ?_, fun parts m content nested out h ↦ ?_⟩
    · obtain ⟨s', out₀, out', hstep, hrun, rfl⟩ := run_cons_eq_some h
      rcases stepQuoted_cases hq hstep with ⟨rfl, hlit, rfl, rfl⟩ | ⟨parts', q', rfl, rfl, hadds⟩ | ⟨m, hc, rfl, rfl⟩
      · refine ⟨[], xs, _, out', rfl, rfl, hrun, fun w hw ↦ ⟨not_mem_nil, ?_⟩⟩
        rw [withPending, reverse_append, reverse_reverse] at hw
        obtain ⟨w₀, w₁, rfl, hw₀, hw₁⟩ := map_eq_append_iff.mp hw.symm
        obtain rfl : w₁ = q.pending := map_injective_iff.mpr (fun _ _ ↦ Part.char.inj) hw₁
        exact ⟨w₀, hw₀.symm, by simp, fun _ _ ↦ ⟨by simp, by simpa using plain_pending_of_valid hq⟩⟩
      · exact (ih.1 parts' q' out' hadds.valid hrun).cons fun t w ↦ ReadFrom.cons hadds
      · exact (ih.2 _ _ _ _ out' hrun).cons fun t w ↦ False.elim
    · obtain ⟨s', out₀, out', hstep, hrun, rfl⟩ := run_cons_eq_some h
      obtain ⟨next, -, heq⟩ := Option.map_eq_some_iff.mp hstep
      cases next with
      | none =>
        cases heq
        refine (ih.1 _ .plain out' trivial hrun).cons fun t w hread ↦ ?_
        obtain ⟨-, w₀, hw₀, -⟩ := hread
        have hmem : Part.sequence m content.reverse ∈ w₀.map Part.char := by simp [← hw₀]
        obtain ⟨d, -, hd⟩ := mem_map.mp hmem
        cases hd
      | some nested' =>
        cases heq
        exact (ih.2 _ _ _ _ out' hrun).cons fun t w ↦ id

/-- A text between quotes that is read as itself is plain, if there is no other quote on the line. -/
theorem plain_of_run_quoted {line rest : Text} (hline : '"' ∉ line)
    (h : run (.quoted [] .plain) (v ++ '"' :: (line ++ '\n' :: rest)) = some (.code [], out)) :
    ∃ template out', out = .str template :: out' ∧
      (template = v.map Part.char → Plain v ∧ run (.code []) (line ++ '\n' :: rest) = some (.code [], out')) := by
  obtain ⟨t, u, template, out', hsplit, rfl, hrun, hvalue⟩ := (closes _).1 [] .plain out trivial h
  refine ⟨template, out', rfl, fun htemplate ↦ ?_⟩
  obtain ⟨hnewline, w₀, hw₀, hle, heq⟩ := hvalue v htemplate
  obtain rfl : w₀ = [] := map_eq_nil_iff.mp hw₀.symm
  simp only [Quoted.pending, length_nil, Nat.zero_add, nil_append] at hle heq
  rcases append_eq_append_iff.mp hsplit with ⟨d, rfl, hd⟩ | ⟨d, rfl, hd⟩
  · cases d with
    | nil =>
      obtain rfl : u = line ++ '\n' :: rest := (List.cons.inj hd).2.symm
      obtain ⟨-, hplain⟩ := heq (by simp) trivial
      exact ⟨by simpa using hplain, hrun⟩
    | cons e d =>
      -- the template goes on behind the quote, but there is no other one on the line
      exfalso
      have hbehind := (List.cons.inj hd).2
      rcases append_eq_append_iff.mp hbehind with ⟨l, rfl, hl⟩ | ⟨l, rfl, hl⟩
      · cases l with
        | nil => cases hl
        | cons e' l =>
          obtain rfl := (List.cons.inj hl).1
          exact hnewline (by simp)
      · cases l with
        | nil => cases hl
        | cons e' l =>
          obtain rfl := (List.cons.inj hl).1
          exact hline (by simp)
  · -- the template ends within the text, and its value is too short for anything to be left of it
    obtain rfl : d = [] := length_eq_zero_iff.mp (by rw [length_append] at hle; omega)
    obtain rfl : u = line ++ '\n' :: rest := (List.cons.inj hd).2
    obtain ⟨-, hplain⟩ := heq (by simp) trivial
    exact ⟨by simpa using hplain, hrun⟩

/-! ### Documents -/

def constant : Token Text → Token (List Part)
  | .word text => .word text
  | .symbol c => .symbol c
  | .newline => .newline
  | .str s => .str (s.map .char)

/-- The text is scanned as the tokens, outside of words and templates at its end. -/
def Scans (text : Text) (tokens : List (Token Text)) : Prop :=
  run (.code []) text = some (.code [], tokens.map constant)

instance (text : Text) (tokens : List (Token Text)) : Decidable (Scans text tokens) :=
  inferInstanceAs (Decidable (run _ _ = _))

/-- A document with places for values between quotes: the text before the first one, for each of them
the rest of its line and the text up to the next one, and the text behind the last one. -/
structure Layout where
  head : String
  gaps : List (String × String)
  tail : String

def gapText (gap : String × String) : Text := gap.1.toList ++ '\n' :: gap.2.toList

def pasted (fields : List (Text × String × String)) : Text :=
  fields.flatMap fun f ↦ '"' :: (f.1 ++ '"' :: gapText f.2)

def Layout.text (L : Layout) (values : List Text) : Text :=
  L.head.toList ++ (pasted (values.zip L.gaps) ++ L.tail.toList)

/-- The tokens of the document: those of its head, those behind each value and those of its tail. -/
structure LayoutTokens where
  head : List (Token Text)
  gaps : List (List (Token Text))
  tail : List (Token Text)

def pastedTokens (fields : List (Text × List (Token Text))) : List (Token Text) :=
  fields.flatMap fun f ↦ .str f.1 :: f.2

def LayoutTokens.tokens (T : LayoutTokens) (values : List Text) : List (Token Text) :=
  T.head ++ (pastedTokens (values.zip T.gaps) ++ (T.tail ++ [.newline]))

/-- The texts of the layout are scanned as the tokens, and there is no quote on the line behind a
value. -/
structure Layout.Scans (L : Layout) (T : LayoutTokens) : Prop where
  head : Hcl.Scans L.head.toList T.head
  gaps : List.Forall₂ (fun gap tokens ↦ Hcl.Scans (gapText gap) tokens ∧ '"' ∉ gap.1.toList) L.gaps T.gaps
  tail : Hcl.Scans L.tail.toList T.tail

section Document

variable {tokens tokens' : List (Token Text)}

/-- Texts are scanned one behind the other. -/
theorem Scans.append (h : Scans xs tokens) (h' : Scans ys tokens') : Scans (xs ++ ys) (tokens ++ tokens') := by
  have hx : run (.code []) xs = _ := h
  have hy : run (.code []) ys = _ := h'
  rw [Scans, run_append, hx, Option.bind_some, hy, map_append]
  rfl

/-- A string is scanned by its characters. -/
theorem scans_ofList (h : Scans xs tokens) : Scans (String.ofList xs).toList tokens := by
  rwa [String.toList_ofList]

theorem gap_ofList (h : Scans (xs ++ '\n' :: ys) tokens) (hline : '"' ∉ xs) :
    Scans (gapText (String.ofList xs, String.ofList ys)) tokens ∧ '"' ∉ (String.ofList xs).toList := by
  rw [gapText, String.toList_ofList, String.toList_ofList]
  exact ⟨h, hline⟩

theorem evalTemplate_map_char (eval : Text → Option Text) (w : Text) :
    evalTemplate eval (w.map Part.char) = some w := by
  induction w with
  | nil => rfl
  | cons c w ih => rw [map_cons, evalTemplate, ih]; rfl

/-- Without the values of expressions only constant templates have one. -/
theorem evalTemplate_none (template : List Part) (h : evalTemplate (fun _ ↦ none) template = some w) :
    template = w.map Part.char := by
  induction template generalizing w with
  | nil =>
    cases h
    rfl
  | cons p template ih =>
    cases p with
    | char c =>
      obtain ⟨w', hw', rfl⟩ := Option.map_eq_some_iff.mp h
      rw [ih hw', map_cons]
    | sequence m content => cases h

theorem mapM_evalToken_constant (eval : Text → Option Text) (tokens : List (Token Text)) :
    (tokens.map constant).mapM (evalToken eval) = some tokens := by
  induction tokens with
  | nil => rfl
  | cons t tokens ih =>
    have ht : evalToken eval (constant t) = some t := by
      cases t with
      | str s => rw [constant, evalToken, evalTemplate_map_char]; rfl
      | _ => rfl
    rw [map_cons, mapM_cons, ht, ih]
    rfl

theorem literals_map_constant (tokens : List (Token Text)) :
    literals (tokens.map constant) = (literals tokens).map fun s ↦ s.map Part.char := by
  induction tokens with
  | nil => rfl
  | cons t tokens ih => cases t <;> simp [constant, ih]

theorem literals_of_mapM_none {out : List (Token (List Part))}
    (h : out.mapM (evalToken fun _ ↦ none) = some tokens) :
    literals out = (literals tokens).map fun s ↦ s.map Part.char := by
  induction out generalizing tokens with
  | nil =>
    cases h
    rfl
  | cons t out ih =>
    rw [mapM_cons] at h
    obtain ⟨t', ht, h⟩ := Option.bind_eq_some_iff.mp h
    obtain ⟨tokens', htokens, heq⟩ := Option.bind_eq_some_iff.mp h
    cases heq
    cases t with
    | str template =>
      obtain ⟨w, hw, rfl⟩ := Option.map_eq_some_iff.mp ht
      rw [literals_str, literals_str, map_cons, ih htokens, evalTemplate_none template hw]
    | _ =>
      cases ht
      simpa using ih htokens

variable {values : List Text} {gaps : List (String × String)} {gapTokens : List (List (Token Text))}

/-- Plain values are scanned as what is meant. -/
theorem run_pasted
    (hgaps : List.Forall₂ (fun gap tokens ↦ Scans (gapText gap) tokens ∧ '"' ∉ gap.1.toList) gaps gapTokens)
    (h : ∀ v ∈ values, Plain v) :
    Scans (pasted (values.zip gaps)) (pastedTokens (values.zip gapTokens)) := by
  induction hgaps generalizing values with
  | nil => simp [pasted, pastedTokens, Scans, run]
  | @cons gap tokens gaps gapTokens hgap _ ih =>
    cases values with
    | nil => rfl
    | cons v values =>
      obtain ⟨hplain, hplains⟩ := forall_mem_cons.mp h
      have hquoted := run_quoted_of_plain (q := .plain) (v := v) trivial hplain []
      have htext : pasted ((v :: values).zip (gap :: gaps)) =
          '"' :: (v ++ ['"'] ++ (gapText gap ++ pasted (values.zip gaps))) := by
        simp [pasted]
      have hopen : step (.code []) '"' = some (.quoted [] .plain, []) := rfl
      have hgap' : run (.code []) (gapText gap) = _ := hgap.1
      have hrest : run (.code []) (pasted (values.zip gaps)) = _ := ih hplains
      rw [Scans, htext, run_cons hopen, run_append, hquoted, Option.bind_some, run_append, hgap',
        Option.bind_some, hrest]
      simp [pastedTokens, constant, withPending, Quoted.pending]

/-- Values that are scanned as the meant templates are plain. -/
theorem plain_of_run_pasted {rest : Text} {lits : List (List Part)}
    (hgaps : List.Forall₂ (fun gap tokens ↦ Scans (gapText gap) tokens ∧ '"' ∉ gap.1.toList) gaps gapTokens)
    (hlength : values.length = gaps.length)
    (hrun : run (.code []) (pasted (values.zip gaps) ++ rest) = some (.code [], out))
    (h : literals out = ((literals (pastedTokens (values.zip gapTokens))).map fun s ↦ s.map Part.char) ++ lits) :
    ∀ v ∈ values, Plain v := by
  induction hgaps generalizing values out with
  | nil =>
    obtain rfl := length_eq_zero_iff.mp hlength
    simp
  | @cons gap tokens gaps gapTokens hgap _ ih =>
    cases values with
    | nil => simp
    | cons v values =>
      have htext : pasted ((v :: values).zip (gap :: gaps)) ++ rest =
          '"' :: (v ++ '"' :: (gap.1.toList ++ '\n' :: (gap.2.toList ++ (pasted (values.zip gaps) ++ rest)))) := by
        simp [pasted, gapText]
      rw [htext] at hrun
      obtain ⟨s', out₀, out₁, hstep, hquoted, hout⟩ := run_cons_eq_some hrun
      cases hstep
      obtain ⟨template, out₂, rfl, hplain⟩ := plain_of_run_quoted hgap.2 hquoted
      obtain rfl : out = .str template :: out₂ := hout
      have hcons : literals (pastedTokens ((v :: values).zip (tokens :: gapTokens))) =
          v :: (literals tokens ++ literals (pastedTokens (values.zip gapTokens))) := by
        simp [pastedTokens]
      rw [literals_str, hcons, map_cons, cons_append] at h
      obtain ⟨htemplate, hlits⟩ := List.cons.inj h
      obtain ⟨hvalue, hrest⟩ := hplain htemplate
      have hgap' : run (.code []) (gapText gap) = _ := hgap.1
      have hseg : gap.1.toList ++ '\n' :: (gap.2.toList ++ (pasted (values.zip gaps) ++ rest)) =
          gapText gap ++ (pasted (values.zip gaps) ++ rest) := by
        simp [gapText]
      rw [hseg, run_append, hgap', Option.bind_some] at hrest
      obtain ⟨⟨s₃, out₃⟩, hrun₃, heq⟩ := Option.map_eq_some_iff.mp hrest
      obtain ⟨rfl, rfl⟩ := Prod.mk.inj heq
      rw [literals_append, literals_map_constant, map_append, append_assoc] at hlits
      exact forall_mem_cons.mpr
        ⟨hvalue, ih (Nat.succ.inj hlength) hrun₃ (append_cancel_left hlits)⟩

/-- A document is read as its intended body, whatever the values of expressions are, just if the
values that are pasted into it are plain. -/
theorem forall_read_eq_iff {L : Layout} {T : LayoutTokens} {body : Body} (hscans : L.Scans T)
    (hlength : values.length = L.gaps.length) (hparse : parse (T.tokens values) = some body) :
    (∀ eval, read eval (L.text values) = some body) ↔ ∀ v ∈ values, Plain v := by
  have hhead : run (.code []) L.head.toList = _ := hscans.head
  constructor
  · intro h
    obtain ⟨out, hlex, hread⟩ := Option.bind_eq_some_iff.mp (h fun _ ↦ none)
    obtain ⟨tokens, heval, hbody⟩ := Option.bind_eq_some_iff.mp hread
    obtain ⟨⟨s, out'⟩, hrun, hend⟩ := Option.bind_eq_some_iff.mp hlex
    obtain ⟨rfl, heq⟩ := Option.ite_none_right_eq_some.mp hend
    cases heq
    rw [Layout.text, append_assoc, run_append, hhead, Option.bind_some, append_assoc] at hrun
    obtain ⟨⟨s₂, out₂⟩, hrun₂, heq⟩ := Option.map_eq_some_iff.mp hrun
    obtain ⟨rfl, rfl⟩ := Prod.mk.inj heq
    have hlits := (literals_parse hbody).trans (literals_parse hparse).symm
    have hout := literals_of_mapM_none heval
    rw [hlits, LayoutTokens.tokens, literals_append, literals_map_constant, literals_append,
      literals_append, map_append, map_append] at hout
    exact plain_of_run_pasted hscans.gaps hlength hrun₂ (append_cancel_left hout)
  · intro h eval
    have hlex : lex (L.text values) = some ((T.tokens values).map constant) := by
      have hend : Scans ['\n'] [.newline] := rfl
      have hall := hscans.head.append ((run_pasted hscans.gaps h).append (hscans.tail.append hend))
      rw [lex, Layout.text, append_assoc, append_assoc]
      exact (Option.bind_eq_some_iff.mpr ⟨_, hall, if_pos rfl⟩)
    rw [read, hlex, Option.bind_eq_bind, Option.bind_some, mapM_evalToken_constant, Option.bind_eq_bind,
      Option.bind_some, hparse]

end Document

end Hcl
