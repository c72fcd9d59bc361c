import BnkForge.Lib.PythonText

/-!
# Redaction of the output of a step

`_redact` and the sink of `_run_phase` (`backend/services/execution/container_engine.py:351–357,
761–769`) over the lines that the runner takes from the output of a step
(`backend/services/execution/container_runner.py:717–720`). To say which characters of the output
are emitted, the same replacement runs on characters that carry their position.
-/

namespace BnkForge.Container

open List

/-! ### The code -/

/-- `***`. -/
def mask : List Char := ['*', '*', '*']

/-- `_redact`. -/
def redact (secrets : List (List Char)) (line : List Char) : List Char :=
  if line.isEmpty || secrets.isEmpty then line
  else secrets.foldl (fun out secret ↦
    if !secret.isEmpty && Python.contains out secret then Python.replace secret mask out else out)
    line

/-- The lines of a text, each with the line break that ends it; the last may have none. -/
def linesOf {α : Type} (key : α → Char) : List α → List (List α × List α)
  | [] => []
  | x :: xs =>
    if key x = '\n' then ([], [x]) :: linesOf key xs
    else
      match linesOf key xs with
      | [] => [([x], [])]
      | (body, stop) :: rest => (x :: body, stop) :: rest

/-- `collected`: the redacted lines of an output. -/
def collected (secrets : List (List Char)) (text : List Char) : List (List Char) :=
  (linesOf id text).map fun line ↦ redact secrets line.1

/-- `"\n".join(collected)`. -/
def stdout (secrets : List (List Char)) (text : List Char) : List Char :=
  ['\n'].intercalate (collected secrets text)

/-! ### The code on characters with their positions -/

/-- A character of the log, with its position in the output if it comes from there. -/
structure Glyph where
  char : Char
  origin : Option Nat
  deriving DecidableEq, Repr

def maskGlyphs : List Glyph := mask.map fun c ↦ ⟨c, none⟩

/-- The characters from a position on. -/
def glyphsFrom (i : Nat) : List Char → List Glyph
  | [] => []
  | c :: cs => ⟨c, some i⟩ :: glyphsFrom (i + 1) cs

/-- `_redact` on characters with their positions. -/
def redactGlyphs (secrets : List (List Char)) (line : List Glyph) : List Glyph :=
  secrets.foldl (fun out secret ↦
    if !secret.isEmpty && Python.contains (out.map Glyph.char) secret then
      Python.replaceFrom Glyph.char secret maskGlyphs 0 out
    else out) line

/-- Lines put together again; the line break after the last is dropped. -/
def joined {α : Type} : List (List α × List α) → List α
  | [] => []
  | [(body, _)] => body
  | (body, stop) :: line :: rest => body ++ stop ++ joined (line :: rest)

def logOf (secrets : List (List Char)) (text : List Char) : List Glyph :=
  joined ((linesOf Glyph.char (glyphsFrom 0 text)).map fun line ↦
    (redactGlyphs secrets line.1, line.2))

/-! ### Complete redaction -/

def OccursAt (secret text : List Char) (i : Nat) : Prop := secret <+: text.drop i

/-- No secret is part of the log, and no character of a secret in the output is emitted. -/
structure Complete (secrets : List (List Char)) (text : List Char) : Prop where
  absent : ∀ secret ∈ secrets, ¬ secret <:+: stdout secrets text
  removed : ∀ secret ∈ secrets, ∀ i, OccursAt secret text i → ∀ j, i ≤ j → j < i + secret.length →
    ∀ glyph ∈ logOf secrets text, glyph.origin ≠ some j

/-- No mask can be read as a part of the secret: it neither begins nor ends with `*` and does not
contain `***`. -/
structure ClearOfMask (secret : List Char) : Prop where
  head : secret.head? ≠ some '*'
  last : secret.getLast? ≠ some '*'
  inside : ¬ mask <:+: secret

/-- The place of the `k`-th secret at position `i` is picked: it lies in one line, and no place
picked before, of an earlier secret or of the same one further to the left, overlaps it. -/
def Picked (secrets : List (List Char)) (text : List Char) (k i : Nat) : Prop :=
  (∃ secret, secrets[k]? = some secret ∧ '\n' ∉ secret ∧ OccursAt secret text i ∧
    ∀ k' i', k' < k ∨ k' = k ∧ i' < i → Picked secrets text k' i' →
      i' + ((secrets[k']?).getD []).length ≤ i ∨ i + secret.length ≤ i')
termination_by (k, i)
decreasing_by
  rename_i h
  rcases h with h | ⟨rfl, h⟩
  · exact Prod.Lex.left _ _ h
  · exact Prod.Lex.right _ h

/-- Every character of a secret in the output lies in a place that is picked, or is the line break
at the end. -/
def Covered (secrets : List (List Char)) (text : List Char) : Prop :=
  ∀ secret ∈ secrets, ∀ i, OccursAt secret text i → ∀ j, i ≤ j → j < i + secret.length →
    (∃ k i', Picked secrets text k i' ∧ i' ≤ j ∧ j < i' + ((secrets[k]?).getD []).length) ∨
      j + 1 = text.length ∧ text[j]? = some '\n'

/-! ### The log and its characters -/

section

variable {secrets : List (List Char)} {text : List Char}

def replaceAll (secrets : List (List Char)) (gs : List Glyph) : List Glyph :=
  secrets.foldl (fun out secret ↦ Python.replaceFrom Glyph.char secret maskGlyphs 0 out) gs

private theorem redactGlyphs_eq (h : ∀ secret ∈ secrets, secret ≠ []) (gs : List Glyph) :
    redactGlyphs secrets gs = replaceAll secrets gs := by
  unfold redactGlyphs replaceAll
  induction secrets generalizing gs with
  | nil => rfl
  | cons secret secrets ih =>
    simp only [foldl_cons]
    rw [ih fun s hs ↦ h s (mem_cons_of_mem _ hs)]
    congr 1
    split
    · rfl
    · next hno =>
      rw [Python.replaceFrom_eq_self]
      intro hwithin
      have hne := h secret mem_cons_self
      exact hno (by simpa [hne] using Python.contains_iff.mpr hwithin)

private theorem redactGlyphs_chars (gs : List Glyph) :
    (redactGlyphs secrets gs).map Glyph.char = redact secrets (gs.map Glyph.char) := by
  have hfold : ∀ (secrets : List (List Char)) (gs : List Glyph),
      (redactGlyphs secrets gs).map Glyph.char = secrets.foldl (fun out secret ↦
        if !secret.isEmpty && Python.contains out secret then Python.replace secret mask out
        else out) (gs.map Glyph.char) := by
    intro secrets
    induction secrets with
    | nil => exact fun _ ↦ rfl
    | cons secret secrets ih =>
      intro gs
      rw [redactGlyphs, foldl_cons, ← redactGlyphs, ih, foldl_cons]
      congr 1
      split
      · next h =>
        have hne : secret.isEmpty = false := by simp_all
        rw [Python.map_replaceFrom, Python.replace, hne]
        rfl
      · rfl
  rw [hfold, redact]
  split
  · next h =>
    rcases Bool.or_eq_true _ _ ▸ h with h | h
    · rw [List.isEmpty_iff.mp h]
      refine List.foldlRecOn secrets _ (motive := fun out ↦ out = []) rfl ?_
      rintro _ rfl secret -
      have : (!secret.isEmpty && Python.contains [] secret) = false := by
        rw [← Bool.not_eq_true, Bool.and_eq_true, Python.contains_iff]
        simp
      rw [this]
      rfl
    · rw [List.isEmpty_iff.mp h]
      rfl
  · rfl

private theorem glyphsFrom_chars (i : Nat) (text : List Char) :
    (glyphsFrom i text).map Glyph.char = text := by
  induction text generalizing i with
  | nil => rfl
  | cons c cs ih => rw [glyphsFrom, map_cons, ih]

private theorem linesOf_chars (gs : List Glyph) :
    linesOf id (gs.map Glyph.char) =
      (linesOf Glyph.char gs).map fun line ↦ (line.1.map Glyph.char, line.2.map Glyph.char) := by
  induction gs with
  | nil => rfl
  | cons g gs ih =>
    simp only [map_cons, linesOf, id]
    split
    · rw [map_cons, ih]
      rfl
    · rw [ih]
      cases linesOf Glyph.char gs <;> rfl

/-- Lines as they are taken from a text: no line break inside, and one at the end of each but the
last. -/
structure Lines (lines : List (List Glyph × List Glyph)) : Prop where
  bodies : ∀ line ∈ lines, ∀ g ∈ line.1, g.char ≠ '\n'
  stops : ∀ line ∈ lines.dropLast, ∃ g, line.2 = [g] ∧ g.char = '\n'

private theorem lines_linesOf (gs : List Glyph) : Lines (linesOf Glyph.char gs) := by
  induction gs with
  | nil => exact ⟨nofun, nofun⟩
  | cons g gs ih =>
    obtain ⟨hbodies, hstops⟩ := ih
    unfold linesOf
    split
    · next hg =>
      constructor
      · intro line hline
        rcases mem_cons.mp hline with rfl | hline
        · exact nofun
        · exact hbodies line hline
      · cases hrest : linesOf Glyph.char gs with
        | nil => exact nofun
        | cons line rest =>
          intro l hl
          rw [hrest] at hstops
          rcases mem_cons.mp hl with rfl | hl
          · exact ⟨g, rfl, hg⟩
          · exact hstops l hl
    · next hg =>
      split
      · refine ⟨fun line hline ↦ ?_, nofun⟩
        rw [mem_singleton.mp hline]
        intro x hx
        rw [mem_singleton.mp hx]
        exact hg
      · next body stop rest hrest =>
        rw [hrest] at hbodies hstops
        constructor
        · intro line hline
          rcases mem_cons.mp hline with rfl | hline
          · intro x hx
            rcases mem_cons.mp hx with rfl | hx
            · exact hg
            · exact hbodies _ mem_cons_self x hx
          · exact hbodies line (mem_cons_of_mem _ hline)
        · cases rest with
          | nil => exact nofun
          | cons next rest =>
            intro l hl
            rcases mem_cons.mp hl with rfl | hl
            · exact hstops (body, stop) mem_cons_self
            · exact hstops l (mem_cons_of_mem _ hl)

private theorem joined_chars {lines : List (List Glyph × List Glyph)}
    (h : ∀ line ∈ lines.dropLast, ∃ g, line.2 = [g] ∧ g.char = '\n') :
    (joined lines).map Glyph.char =
      ['\n'].intercalate (lines.map fun line ↦ line.1.map Glyph.char) := by
  induction lines with
  | nil => rfl
  | cons line lines ih =>
    cases lines with
    | nil => simp [joined]
    | cons next rest =>
      obtain ⟨g, hstop, hg⟩ := h line mem_cons_self
      rw [joined, map_append, map_append,
        ih fun l hl ↦ h l (mem_cons_of_mem _ hl), hstop]
      simp [hg]

theorem logOf_chars (secrets : List (List Char)) (text : List Char) :
    (logOf secrets text).map Glyph.char = stdout secrets text := by
  have hlines := lines_linesOf (glyphsFrom 0 text)
  rw [logOf, joined_chars, stdout, collected, map_map]
  · nth_rewrite 2 [← glyphsFrom_chars 0 text]
    rw [linesOf_chars, map_map]
    congr 1
    exact map_congr_left fun line _ ↦ redactGlyphs_chars line.1
  · rw [← map_dropLast]
    intro line hline
    obtain ⟨l, hl, rfl⟩ := mem_map.mp hline
    exact hlines.stops l hl

/-! ### All lines at once -/

def dropFinalBreak {α : Type} (key : α → Char) : List α → List α
  | [] => []
  | [x] => if key x = '\n' then [] else [x]
  | x :: y :: xs => x :: dropFinalBreak key (y :: xs)

private theorem linesOf_ne_nil {α : Type} (key : α → Char) (x : α) (xs : List α) :
    linesOf key (x :: xs) ≠ [] := by
  unfold linesOf
  split
  · exact nofun
  · split <;> exact nofun

private theorem joined_linesOf (gs : List Glyph) :
    joined (linesOf Glyph.char gs) = dropFinalBreak Glyph.char gs := by
  induction gs with
  | nil => rfl
  | cons g gs ih =>
    cases gs with
    | nil => by_cases hg : g.char = '\n' <;> simp [linesOf, dropFinalBreak, joined, hg]
    | cons y gs =>
      rw [dropFinalBreak, ← ih, linesOf]
      cases hrest : linesOf Glyph.char (y :: gs) with
      | nil => exact absurd hrest (linesOf_ne_nil _ _ _)
      | cons line rest =>
        split
        · rfl
        · cases rest with
          | nil => rfl
          | cons next rest => rfl

private theorem dropFinalBreak_glyphsFrom (i : Nat) (text : List Char) :
    dropFinalBreak Glyph.char (glyphsFrom i text) = glyphsFrom i (dropFinalBreak id text) := by
  induction text generalizing i with
  | nil => rfl
  | cons c cs ih =>
    cases cs with
    | nil => by_cases hc : c = '\n' <;> simp [glyphsFrom, dropFinalBreak, hc]
    | cons d cs =>
      rw [glyphsFrom, glyphsFrom, dropFinalBreak, ← glyphsFrom, ih]
      rfl

/-- A secret without line breaks is replaced in the whole text, another one nowhere. -/
def maskStep (gs : List Glyph) (secret : List Char) : List Glyph :=
  if '\n' ∈ secret then gs else Python.replaceFrom Glyph.char secret maskGlyphs 0 gs

private theorem prefix_of_barrier {old a b : List Char} {c : Char} (hc : c ∉ old)
    (h : old <+: a ++ c :: b) : old <+: a := by
  rcases prefix_or_prefix_of_prefix h (prefix_append a (c :: b)) with h' | ⟨t, rfl⟩
  · exact h'
  · rw [prefix_append_right_inj] at h
    cases t with
    | nil => rw [append_nil]
    | cons d t =>
      obtain rfl := (cons_prefix_cons.mp h).1
      exact absurd (mem_append_right a mem_cons_self) hc

/-- A character that is not part of `old` separates the replacements. -/
private theorem replaceFrom_barrier {old : List Char} {new : List Glyph} {x : Glyph}
    (hx : x.char ∉ old) (hne : old ≠ []) {body : List Glyph} {skip : Nat} (hskip : skip ≤ body.length)
    (rest : List Glyph) :
    Python.replaceFrom Glyph.char old new skip (body ++ x :: rest) =
      Python.replaceFrom Glyph.char old new skip body ++
        x :: Python.replaceFrom Glyph.char old new 0 rest := by
  induction body generalizing skip with
  | nil =>
    obtain rfl : skip = 0 := Nat.le_zero.mp hskip
    have hstart : old.isPrefixOf ((x :: rest).map Glyph.char) = false := by
      obtain ⟨c, old, rfl⟩ := exists_cons_of_ne_nil hne
      have : c ≠ x.char := fun h ↦ hx (h ▸ mem_cons_self)
      simp [List.isPrefixOf, this]
    rw [nil_append]
    simp only [Python.replaceFrom, hstart]
    rfl
  | cons g body ih =>
    cases skip with
    | succ skip => exact ih (Nat.le_of_succ_le_succ hskip)
    | zero =>
      -- a copy of `old` that begins in the body ends in it
      have hstart : old.isPrefixOf ((g :: (body ++ x :: rest)).map Glyph.char) =
          old.isPrefixOf ((g :: body).map Glyph.char) := by
        rw [Bool.eq_iff_iff, isPrefixOf_iff_prefix, isPrefixOf_iff_prefix,
          ← cons_append, map_append, map_cons]
        exact ⟨prefix_of_barrier hx, fun h ↦ h.trans (prefix_append _ _)⟩
      rw [cons_append]
      simp only [Python.replaceFrom, hstart]
      split
      · next hold =>
        have hlen : old.length - 1 ≤ body.length := by
          have := (List.isPrefixOf_iff_prefix.mp hold).length_le
          simp only [length_map, length_cons] at this
          omega
        rw [ih hlen, append_assoc]
      · rw [ih (Nat.zero_le _), cons_append]

private theorem replaceFrom_no_break {secret : List Char} {gs : List Glyph}
    (hgs : ∀ g ∈ gs, g.char ≠ '\n') (skip : Nat) :
    ∀ g ∈ Python.replaceFrom Glyph.char secret maskGlyphs skip gs, g.char ≠ '\n' := by
  induction gs generalizing skip with
  | nil => cases skip <;> exact nofun
  | cons x gs ih =>
    have hrest : ∀ g ∈ gs, g.char ≠ '\n' := fun g hg ↦ hgs g (mem_cons_of_mem _ hg)
    cases skip with
    | succ skip => exact ih hrest skip
    | zero =>
      intro g hg
      rw [Python.replaceFrom] at hg
      split at hg
      · rcases mem_append.mp hg with hg | hg
        · simp only [maskGlyphs, mask, map_cons, map_nil, mem_cons, not_mem_nil,
            or_false, or_self] at hg
          rw [hg]
          decide
        · exact ih hrest _ g hg
      · rcases mem_cons.mp hg with rfl | hg
        · exact hgs g mem_cons_self
        · exact ih hrest 0 g hg

private theorem joined_replaceFrom {lines : List (List Glyph × List Glyph)} (h : Lines lines)
    {secret : List Char} (hne : secret ≠ []) :
    joined (lines.map fun line ↦
      (Python.replaceFrom Glyph.char secret maskGlyphs 0 line.1, line.2)) =
      maskStep (joined lines) secret := by
  unfold maskStep
  split
  · next hbreak =>
    -- no line has the line break of the secret
    have hsame : (lines.map fun line ↦
        (Python.replaceFrom Glyph.char secret maskGlyphs 0 line.1, line.2)) = lines := by
      refine (map_congr_left fun line hline ↦ ?_).trans (map_id lines)
      rw [Python.replaceFrom_eq_self]
      · rfl
      · intro hwithin
        obtain ⟨g, hg, hchar⟩ := mem_map.mp (hwithin.subset hbreak)
        exact h.bodies line hline g hg hchar
    rw [hsame]
  · next hbreak =>
    induction lines with
    | nil => rfl
    | cons line lines ih =>
      cases lines with
      | nil => rfl
      | cons next rest =>
        obtain ⟨g, hstop, hg⟩ := h.stops line mem_cons_self
        have htail : Lines (next :: rest) :=
          ⟨fun l hl ↦ h.bodies l (mem_cons_of_mem _ hl),
            fun l hl ↦ h.stops l (mem_cons_of_mem _ hl)⟩
        have := ih htail
        rw [map_cons] at this
        rw [map_cons, map_cons, joined, this, joined, hstop, append_assoc,
          append_assoc, singleton_append, singleton_append,
          replaceFrom_barrier (hg ▸ hbreak) hne (Nat.zero_le _)]

private theorem Lines.replaceFrom {lines : List (List Glyph × List Glyph)} (h : Lines lines)
    (secret : List Char) : Lines (lines.map fun line ↦
      (Python.replaceFrom Glyph.char secret maskGlyphs 0 line.1, line.2)) := by
  constructor
  · intro line hline
    obtain ⟨l, hl, rfl⟩ := mem_map.mp hline
    exact replaceFrom_no_break (h.bodies l hl) 0
  · rw [← map_dropLast]
    intro line hline
    obtain ⟨l, hl, rfl⟩ := mem_map.mp hline
    exact h.stops l hl

private theorem joined_replaceAll {lines : List (List Glyph × List Glyph)} (h : Lines lines)
    (hne : ∀ secret ∈ secrets, secret ≠ []) :
    joined (lines.map fun line ↦ (replaceAll secrets line.1, line.2)) =
      secrets.foldl maskStep (joined lines) := by
  induction secrets generalizing lines with
  | nil => simp [replaceAll]
  | cons secret secrets ih =>
    have := ih (h.replaceFrom secret) fun s hs ↦ hne s (mem_cons_of_mem _ hs)
    rw [map_map] at this
    rw [foldl_cons, ← joined_replaceFrom h (hne secret mem_cons_self), ← this]
    rfl

private theorem logOf_eq (hne : ∀ secret ∈ secrets, secret ≠ []) :
    logOf secrets text = secrets.foldl maskStep (glyphsFrom 0 (dropFinalBreak id text)) := by
  have hlines := lines_linesOf (glyphsFrom 0 text)
  simp only [logOf, redactGlyphs_eq hne]
  rw [joined_replaceAll hlines hne, joined_linesOf, dropFinalBreak_glyphsFrom]

/-! ### Cells -/

inductive Mark
  | kept
  /-- The first character of a replaced secret, where the mask stands. -/
  | masked
  /-- Another character of a replaced secret. -/
  | gone
  deriving DecidableEq, Repr

def render : Nat → List (Char × Mark) → List Glyph
  | _, [] => []
  | i, (c, .kept) :: xs => ⟨c, some i⟩ :: render (i + 1) xs
  | i, (_, .masked) :: xs => maskGlyphs ++ render (i + 1) xs
  | i, (_, .gone) :: xs => render (i + 1) xs

def cellsOf (secret : List Char) : List (Char × Mark) := secret.map fun c ↦ (c, .kept)

/-- A replacement on cells, with `skip` of them still to be passed over. -/
def cover (secret : List Char) : Nat → List (Char × Mark) → List (Char × Mark)
  | _, [] => []
  | skip + 1, x :: xs => (x.1, .gone) :: cover secret skip xs
  | 0, x :: xs =>
    if (cellsOf secret).isPrefixOf (x :: xs) then (x.1, .masked) :: cover secret (secret.length - 1) xs
    else x :: cover secret 0 xs

/-- A mask stands before the characters that are gone. -/
def Tidy : List (Char × Mark) → Prop
  | [] => True
  | x :: xs => (x.2 = .kept → ∀ y ∈ xs.head?, y.2 ≠ .gone) ∧ Tidy xs

/-- The character at `j` is kept, where the first cell has position `i`. -/
def Live : Nat → List (Char × Mark) → Nat → Prop
  | _, [], _ => False
  | i, x :: xs, j => x.2 = .kept ∧ j = i ∨ Live (i + 1) xs j

variable {secret : List Char} {xs : List (Char × Mark)} {i j skip : Nat}

private theorem mem_render : (∃ g ∈ render i xs, g.origin = some j) ↔ Live i xs j := by
  induction xs generalizing i with
  | nil => simp [render, Live]
  | cons x xs ih =>
    obtain ⟨c, mark⟩ := x
    cases mark with
    | kept => simp [render, Live, ih, eq_comm]
    | masked => simp [render, Live, ih, maskGlyphs, mask]
    | gone => simp [render, Live, ih]

private theorem le_of_live (h : Live i xs j) : i ≤ j := by
  induction xs generalizing i with
  | nil => cases h
  | cons x xs ih =>
    rcases h with ⟨-, rfl⟩ | h
    · exact le_rfl
    · exact Nat.le_of_succ_le (ih h)

private theorem prefix_cellsOf :
    cellsOf secret <+: xs ↔ secret <+: xs.map Prod.fst ∧ ∀ m < secret.length, Live i xs (i + m) := by
  induction secret generalizing i xs with
  | nil => simp [cellsOf]
  | cons c secret ih =>
    cases xs with
    | nil => simp [cellsOf]
    | cons x xs =>
      obtain ⟨d, mark⟩ := x
      have hcons : cellsOf (c :: secret) = (c, .kept) :: cellsOf secret := rfl
      rw [hcons, cons_prefix_cons, ih (i := i + 1), map_cons, cons_prefix_cons]
      constructor
      · rintro ⟨heq, hstart, hlive⟩
        obtain ⟨rfl, rfl⟩ := Prod.mk.inj heq
        refine ⟨⟨rfl, hstart⟩, fun m hm ↦ ?_⟩
        cases m with
        | zero => exact Or.inl ⟨rfl, rfl⟩
        | succ m =>
          have := hlive m (by simpa using hm)
          exact Or.inr (by rwa [Nat.add_assoc, Nat.add_comm 1] at this)
      · rintro ⟨⟨rfl, hstart⟩, hlive⟩
        have hkept : mark = .kept := by
          rcases hlive 0 (Nat.zero_lt_succ _) with ⟨hkept, -⟩ | h
          · exact hkept
          · have := le_of_live h
            omega
        refine ⟨by rw [hkept], hstart, fun m hm ↦ ?_⟩
        rcases hlive (m + 1) (by simpa using hm) with ⟨-, h⟩ | h
        · omega
        · rwa [Nat.add_assoc, Nat.add_comm 1]

private theorem not_prefix_mask (hne : secret ≠ []) (hlast : secret.getLast? ≠ some '*')
    (hinside : ¬ mask <:+: secret) (rest : List Char) : ¬ secret <+: mask ++ rest := by
  intro h
  rcases prefix_or_prefix_of_prefix h (prefix_append mask rest) with h | h
  · -- the secret is a beginning of the mask
    have hstars : ∀ c ∈ secret, c = '*' := by
      intro c hc
      simpa [mask] using h.subset hc
    rw [getLast?_eq_some_getLast hne] at hlast
    exact hlast (congrArg some (hstars _ (getLast_mem hne)))
  · exact hinside h.isInfix

private theorem prefix_render (htidy : Tidy xs) (hhead : ∀ x ∈ xs.head?, x.2 ≠ .gone)
    (hlast : secret.getLast? ≠ some '*') (hinside : ¬ mask <:+: secret) :
    secret <+: (render i xs).map Glyph.char ↔ cellsOf secret <+: xs := by
  induction secret generalizing i xs with
  | nil => simp [cellsOf]
  | cons c secret ih =>
    cases xs with
    | nil => simp [cellsOf, render]
    | cons x xs =>
      obtain ⟨d, mark⟩ := x
      have hcons : cellsOf (c :: secret) = (c, .kept) :: cellsOf secret := rfl
      cases mark with
      | kept =>
        have hlast' : secret.getLast? ≠ some '*' := by
          cases secret with
          | nil => exact nofun
          | cons e secret => rwa [getLast?_cons_cons] at hlast
        have hinside' : ¬ mask <:+: secret := fun h ↦ hinside (h.trans (infix_cons_iff.mpr
          (Or.inr (infix_refl secret))))
        rw [hcons, cons_prefix_cons, render, map_cons, cons_prefix_cons,
          ih htidy.2 (htidy.1 rfl) hlast' hinside']
        simp
      | masked =>
        refine iff_of_false ?_ ?_
        · rw [render, map_append]
          exact not_prefix_mask (cons_ne_nil c secret) hlast hinside _
        · rw [hcons, cons_prefix_cons]
          simp
      | gone => exact absurd rfl (hhead _ rfl)

private theorem cellsOf_isPrefixOf (hne : secret ≠ []) {x : Char × Mark} (hx : x.2 ≠ .kept) :
    (cellsOf secret).isPrefixOf (x :: xs) = false := by
  obtain ⟨c, secret, rfl⟩ := exists_cons_of_ne_nil hne
  rw [← Bool.not_eq_true, isPrefixOf_iff_prefix]
  intro h
  have := (cons_prefix_cons.mp h).1
  exact hx (this ▸ rfl)

private theorem replaceFrom_mask (hne : secret ≠ []) (hhead : secret.head? ≠ some '*')
    (rest : List Glyph) :
    Python.replaceFrom Glyph.char secret maskGlyphs 0 (maskGlyphs ++ rest) =
      maskGlyphs ++ Python.replaceFrom Glyph.char secret maskGlyphs 0 rest := by
  have hstar : ∀ rest, Python.replaceFrom Glyph.char secret maskGlyphs 0 (⟨'*', none⟩ :: rest) =
      ⟨'*', none⟩ :: Python.replaceFrom Glyph.char secret maskGlyphs 0 rest := by
    intro rest
    obtain ⟨c, secret, rfl⟩ := exists_cons_of_ne_nil hne
    have hc : c ≠ '*' := fun h ↦ hhead (congrArg some h)
    simp [Python.replaceFrom, List.isPrefixOf, hc]
  have hlist : maskGlyphs = [⟨'*', none⟩, ⟨'*', none⟩, ⟨'*', none⟩] := rfl
  nth_rewrite 2 [hlist]
  simp only [cons_append, nil_append, hstar]
  rfl

private theorem replaceFrom_render (htidy : Tidy xs) (hne : secret ≠ []) (hclear : ClearOfMask secret)
    (hskip : ∀ m < skip, ∃ c, xs[m]? = some (c, .kept)) :
    Python.replaceFrom Glyph.char secret maskGlyphs skip (render i xs) =
      render i (cover secret skip xs) := by
  induction xs generalizing i skip with
  | nil => cases skip <;> rfl
  | cons x xs ih =>
    obtain ⟨c, mark⟩ := x
    cases skip with
    | succ skip =>
      obtain ⟨d, hd⟩ := hskip 0 (Nat.zero_lt_succ _)
      cases hd
      exact ih htidy.2 fun m hm ↦ hskip (m + 1) (Nat.succ_lt_succ hm)
    | zero =>
      have hrest : Python.replaceFrom Glyph.char secret maskGlyphs 0 (render (i + 1) xs) =
          render (i + 1) (cover secret 0 xs) := ih htidy.2 (by simp)
      cases mark with
      | kept =>
        have hstart : secret.isPrefixOf ((render i ((c, .kept) :: xs)).map Glyph.char) =
            (cellsOf secret).isPrefixOf ((c, .kept) :: xs) := by
          rw [Bool.eq_iff_iff, isPrefixOf_iff_prefix, isPrefixOf_iff_prefix]
          refine prefix_render htidy (fun x hx ↦ ?_) hclear.last hclear.inside
          cases hx
          simp
        rw [render] at hstart ⊢
        simp only [Python.replaceFrom, cover, hstart]
        split
        · next hfits =>
          rw [render, ih htidy.2]
          intro m hm
          have hcell := isPrefixOf_iff_prefix.mp hfits
          have hlen : m + 1 < (cellsOf secret).length := by
            rw [cellsOf, length_map]
            omega
          have hget := hcell.getElem hlen
          rw [getElem_cons_succ] at hget
          refine ⟨secret[m + 1], ?_⟩
          have hbound : m < xs.length := by
            have := hcell.length_le
            rw [length_cons] at this
            omega
          rw [getElem?_eq_getElem hbound, ← hget]
          simp [cellsOf]
        · rw [render, hrest]
      | masked =>
        simp only [cover, cellsOf_isPrefixOf hne (x := (c, .masked)) (by simp), render]
        rw [replaceFrom_mask hne hclear.head, hrest]
        rfl
      | gone =>
        simp only [render, cover, cellsOf_isPrefixOf hne (x := (c, .gone)) (by simp)]
        exact hrest

private theorem cover_head {x : Char × Mark} (hx : x.2 ≠ .gone) :
    ∀ y ∈ (cover secret 0 (x :: xs)).head?, y.2 ≠ .gone := by
  intro y hy
  unfold cover at hy
  split at hy
  · cases hy
    exact nofun
  · cases hy
    exact hx

private theorem tidy_cover (htidy : Tidy xs) : Tidy (cover secret skip xs) := by
  induction xs generalizing skip with
  | nil => cases skip <;> trivial
  | cons x xs ih =>
    cases skip with
    | succ skip => exact ⟨nofun, ih htidy.2⟩
    | zero =>
      unfold cover
      split
      · exact ⟨nofun, ih htidy.2⟩
      · refine ⟨fun hkept ↦ ?_, ih htidy.2⟩
        cases xs with
        | nil => exact nofun
        | cons y xs => exact cover_head (htidy.1 hkept y rfl)

private theorem live_cover {cells : List (Char × Mark)} {P : Nat → Prop} (hne : secret ≠ [])
    (hP : ∀ i, P i ↔ cellsOf secret <+: cells.drop i ∧ ∀ i' < i, P i' → i' + secret.length ≤ i)
    (hxs : xs = cells.drop i) (hbehind : ∀ i' < i, P i' → i' + secret.length ≤ i + skip)
    (hskip : 0 < skip → ∃ i' < i, P i' ∧ i' + secret.length = i + skip) :
    Live i (cover secret skip xs) j ↔
      Live i xs j ∧ ¬ ∃ i', P i' ∧ i' ≤ j ∧ j < i' + secret.length := by
  have hpos : 0 < secret.length := length_pos_of_ne_nil hne
  induction xs generalizing i skip with
  | nil => cases skip <;> simp [cover, Live]
  | cons x xs ih =>
    have htail : xs = cells.drop (i + 1) := by
      rw [← drop_drop, ← hxs]
      rfl
    cases skip with
    | succ skip =>
      obtain ⟨i₀, hi₀, hP₀, hend⟩ := hskip (Nat.zero_lt_succ _)
      have hnot : ¬ P i := by
        intro hPi
        have := ((hP i).mp hPi).2 i₀ hi₀ hP₀
        omega
      have hbehind' : ∀ i' < i + 1, P i' → i' + secret.length ≤ i + 1 + skip := by
        intro i' hi' hP'
        rcases Nat.lt_succ_iff_lt_or_eq.mp hi' with hi' | rfl
        · have := hbehind i' hi' hP'
          omega
        · exact absurd hP' hnot
      have hrest := ih htail hbehind' fun _ ↦ ⟨i₀, by omega, hP₀, by omega⟩
      simp only [cover, Live, hrest]
      constructor
      · rintro (⟨h, -⟩ | ⟨hlive, hfree⟩)
        · cases h
        · exact ⟨Or.inr hlive, hfree⟩
      · rintro ⟨⟨-, rfl⟩ | hlive, hfree⟩
        · exact absurd ⟨i₀, hP₀, by omega, by omega⟩ hfree
        · exact Or.inr ⟨hlive, hfree⟩
    | zero =>
      by_cases hfits : cellsOf secret <+: x :: xs
      · have hPi : P i := (hP i).mpr ⟨hxs ▸ hfits, hbehind⟩
        have hbehind' : ∀ i' < i + 1, P i' → i' + secret.length ≤ i + 1 + (secret.length - 1) := by
          intro i' hi' _
          omega
        have hrest := ih htail hbehind' fun _ ↦ ⟨i, by omega, hPi, by omega⟩
        simp only [cover, if_pos (List.isPrefixOf_iff_prefix.mpr hfits), Live, hrest]
        constructor
        · rintro (⟨h, -⟩ | ⟨hlive, hfree⟩)
          · cases h
          · exact ⟨Or.inr hlive, hfree⟩
        · rintro ⟨⟨-, rfl⟩ | hlive, hfree⟩
          · exact absurd ⟨j, hPi, le_rfl, by omega⟩ hfree
          · exact Or.inr ⟨hlive, hfree⟩
      · have hnot : ¬ P i := fun hPi ↦ hfits (hxs ▸ ((hP i).mp hPi).1)
        have hbehind' : ∀ i' < i + 1, P i' → i' + secret.length ≤ i + 1 + 0 := by
          intro i' hi' hP'
          rcases Nat.lt_succ_iff_lt_or_eq.mp hi' with hi' | rfl
          · have := hbehind i' hi' hP'
            omega
          · exact absurd hP' hnot
        have hrest := ih htail hbehind' nofun
        simp only [cover, if_neg fun h ↦ hfits (List.isPrefixOf_iff_prefix.mp h), Live, hrest]
        constructor
        · rintro (⟨hkept, rfl⟩ | ⟨hlive, hfree⟩)
          · refine ⟨Or.inl ⟨hkept, rfl⟩, ?_⟩
            rintro ⟨i', hP', hle, hlt⟩
            rcases Nat.lt_or_eq_of_le hle with hi' | rfl
            · have := hbehind i' hi' hP'
              omega
            · exact hnot hP'
          · exact ⟨Or.inr hlive, hfree⟩
        · rintro ⟨hkept | hlive, hfree⟩
          · exact Or.inl hkept
          · exact Or.inr ⟨hlive, hfree⟩

private theorem cover_chars : (cover secret skip xs).map Prod.fst = xs.map Prod.fst := by
  induction xs generalizing skip with
  | nil => cases skip <;> rfl
  | cons x xs ih =>
    cases skip with
    | succ skip => rw [cover, map_cons, ih, map_cons]
    | zero =>
      unfold cover
      split <;> rw [map_cons, ih, map_cons]

/-! ### The places that are picked -/

/-- The character at `j` lies in a place picked for one of the first `k` secrets. -/
def PickedBefore (secrets : List (List Char)) (text : List Char) (k j : Nat) : Prop :=
  ∃ k' < k, ∃ i', Picked secrets text k' i' ∧ i' ≤ j ∧ j < i' + ((secrets[k']?).getD []).length

/-- The cells after the first `k` secrets. -/
structure Stage (secrets : List (List Char)) (text : List Char) (k : Nat)
    (cells : List (Char × Mark)) : Prop where
  chars : cells.map Prod.fst = dropFinalBreak id text
  tidy : Tidy cells
  live : ∀ j, Live 0 cells j ↔
    j < (dropFinalBreak id text).length ∧ ¬ PickedBefore secrets text k j

private theorem dropFinalBreak_cases (text : List Char) :
    dropFinalBreak id text = text ∧ (∀ t, text ≠ t ++ ['\n']) ∨
      text = dropFinalBreak id text ++ ['\n'] := by
  induction text with
  | nil => exact Or.inl ⟨rfl, fun t h ↦ by simpa using congrArg List.length h⟩
  | cons c cs ih =>
    cases cs with
    | nil =>
      unfold dropFinalBreak
      split
      · next hc => exact Or.inr (by rw [nil_append, ← hc]; rfl)
      · next hc =>
        refine Or.inl ⟨rfl, fun t h ↦ hc ?_⟩
        exact (append_eq_singleton_iff.mp h.symm).elim (fun h ↦ (singleton_inj.mp h.2).symm)
          fun h ↦ nomatch h.2
    | cons d cs =>
      rcases ih with ⟨heq, hno⟩ | heq
      · refine Or.inl ⟨by rw [dropFinalBreak, heq], fun t h ↦ ?_⟩
        cases t with
        | nil => cases h
        | cons e t => exact hno t (List.cons.inj h).2
      · exact Or.inr (by rw [dropFinalBreak, cons_append, ← heq])

private theorem prefix_dropFinalBreak (text : List Char) : dropFinalBreak id text <+: text := by
  rcases dropFinalBreak_cases text with ⟨heq, -⟩ | heq
  · rw [heq]
  · nth_rewrite 2 [heq]
    exact prefix_append _ _

private theorem lt_dropFinalBreak :
    j < (dropFinalBreak id text).length ↔
      j < text.length ∧ ¬ (j + 1 = text.length ∧ text[j]? = some '\n') := by
  rcases dropFinalBreak_cases text with ⟨heq, hno⟩ | heq
  · rw [heq]
    refine ⟨fun h ↦ ⟨h, fun ⟨hlast, hbreak⟩ ↦ ?_⟩, fun h ↦ h.1⟩
    obtain rfl | ⟨t, c, rfl⟩ := eq_nil_or_concat text
    · cases hlast
    · obtain rfl : j = t.length := by simpa using hlast
      rw [concat_eq_append, getElem?_concat_length] at hbreak
      exact hno t (by rw [concat_eq_append, Option.some.inj hbreak])
  · generalize dropFinalBreak id text = t at heq
    subst heq
    rw [length_append, length_singleton]
    refine ⟨fun h ↦ ⟨by omega, by omega⟩, fun ⟨hlt, hbreak⟩ ↦ ?_⟩
    by_contra hge
    obtain rfl : j = t.length := by omega
    exact hbreak ⟨rfl, getElem?_concat_length⟩

private theorem occursAt_dropFinalBreak (hbreak : '\n' ∉ secret) :
    OccursAt secret (dropFinalBreak id text) i ↔ OccursAt secret text i := by
  rcases dropFinalBreak_cases text with ⟨heq, -⟩ | heq
  · rw [heq]
  · unfold OccursAt
    nth_rewrite 2 [heq]
    by_cases hi : i ≤ (dropFinalBreak id text).length
    · rw [drop_append_of_le_length hi]
      exact ⟨fun h ↦ h.trans (prefix_append _ _), prefix_of_barrier hbreak⟩
    · rw [drop_eq_nil_of_le (by omega), drop_eq_nil_of_le (by simp; omega)]

private theorem live_drop {b : Nat} : Live (b + i) (xs.drop i) j ↔ Live b xs j ∧ b + i ≤ j := by
  induction i generalizing b xs with
  | zero => exact ⟨fun h ↦ ⟨h, le_of_live h⟩, fun h ↦ h.1⟩
  | succ i ih =>
    cases xs with
    | nil => simp [Live]
    | cons x xs =>
      rw [drop_succ_cons, show b + (i + 1) = b + 1 + i by omega, ih, Live]
      refine ⟨fun h ↦ ⟨Or.inr h.1, h.2⟩, fun ⟨h, hle⟩ ↦ ?_⟩
      rcases h with ⟨-, rfl⟩ | h
      · omega
      · exact ⟨h, hle⟩

private theorem live_drop_zero : Live i (xs.drop i) j ↔ Live 0 xs j ∧ i ≤ j := by
  have h : Live (0 + i) (xs.drop i) j ↔ Live 0 xs j ∧ 0 + i ≤ j := live_drop
  rwa [Nat.zero_add] at h

private theorem picked_length (hne : ∀ secret ∈ secrets, secret ≠ []) {k : Nat}
    (h : Picked secrets text k i) : 0 < ((secrets[k]?).getD []).length := by
  rw [Picked] at h
  obtain ⟨secret, hsecret, -⟩ := h
  rw [hsecret]
  exact length_pos_of_ne_nil (hne secret (mem_of_getElem? hsecret))

private theorem picked_iff {cells : List (Char × Mark)} {k : Nat} (h : Stage secrets text k cells)
    (hsecret : secrets[k]? = some secret) (hne : ∀ secret ∈ secrets, secret ≠ [])
    (hbreak : '\n' ∉ secret) (i : Nat) : Picked secrets text k i ↔ cellsOf secret <+: cells.drop i ∧
      ∀ i' < i, Picked secrets text k i' → i' + secret.length ≤ i := by
  have hpos : 0 < secret.length :=
    length_pos_of_ne_nil (hne secret (mem_of_getElem? hsecret))
  have hfits : cellsOf secret <+: cells.drop i ↔ OccursAt secret text i ∧
      ∀ m < secret.length, ¬ PickedBefore secrets text k (i + m) := by
    rw [prefix_cellsOf (i := i), map_drop, h.chars, ← occursAt_dropFinalBreak hbreak, OccursAt]
    refine and_congr_right fun hoccurs ↦ forall₂_congr fun m hm ↦ ?_
    have hbound : i + m < (dropFinalBreak id text).length := by
      have := hoccurs.length_le
      rw [length_drop] at this
      omega
    rw [live_drop_zero, h.live]
    exact ⟨fun hlive ↦ hlive.1.2, fun hfree ↦ ⟨⟨hbound, hfree⟩, Nat.le_add_right _ _⟩⟩
  rw [hfits, Picked, hsecret]
  constructor
  · rintro ⟨_, ⟨rfl⟩, -, hoccurs, hfree⟩
    refine ⟨⟨hoccurs, fun m hm ↦ ?_⟩, fun i' hi' hpicked ↦ ?_⟩
    · rintro ⟨k', hk', i', hpicked, hle, hlt⟩
      rcases hfree k' i' (Or.inl hk') hpicked with hdisjoint | hdisjoint
      · omega
      · omega
    · rcases hfree k i' (Or.inr ⟨rfl, hi'⟩) hpicked with hdisjoint | hdisjoint
      · rwa [hsecret] at hdisjoint
      · omega
  · rintro ⟨⟨hoccurs, hlive⟩, hleft⟩
    refine ⟨secret, rfl, hbreak, hoccurs, fun k' i' hearlier hpicked ↦ ?_⟩
    rcases hearlier with hk' | ⟨rfl, hi'⟩
    · -- a common position of both places would be picked before
      by_contra hoverlap
      have := picked_length hne hpicked
      refine hlive (max i i' - i) (by omega) ⟨k', hk', i', hpicked, ?_, ?_⟩
      all_goals omega
    · rw [hsecret]
      exact Or.inl (hleft i' hi' hpicked)

private theorem pickedBefore_succ {k : Nat} :
    PickedBefore secrets text (k + 1) j ↔ PickedBefore secrets text k j ∨
      ∃ i', Picked secrets text k i' ∧ i' ≤ j ∧ j < i' + ((secrets[k]?).getD []).length := by
  constructor
  · rintro ⟨k', hk', hplace⟩
    rcases Nat.lt_succ_iff_lt_or_eq.mp hk' with hk' | rfl
    · exact Or.inl ⟨k', hk', hplace⟩
    · exact Or.inr hplace
  · rintro (⟨k', hk', hplace⟩ | hplace)
    · exact ⟨k', Nat.lt_succ_of_lt hk', hplace⟩
    · exact ⟨k, Nat.lt_succ_self k, hplace⟩

private theorem Stage.next {cells : List (Char × Mark)} {k : Nat} (h : Stage secrets text k cells)
    (hsecret : secrets[k]? = some secret) (hne : ∀ secret ∈ secrets, secret ≠ [])
    (hclear : ClearOfMask secret) :
    ∃ cells', maskStep (render 0 cells) secret = render 0 cells' ∧
      Stage secrets text (k + 1) cells' := by
  have hsecretNe : secret ≠ [] := hne secret (mem_of_getElem? hsecret)
  unfold maskStep
  split
  · next hbreak =>
    refine ⟨cells, rfl, h.chars, h.tidy, fun j ↦ ?_⟩
    have hnone : ∀ i', ¬ Picked secrets text k i' := by
      intro i' hpicked
      rw [Picked, hsecret] at hpicked
      obtain ⟨_, ⟨rfl⟩, hno, -⟩ := hpicked
      exact hno hbreak
    rw [h.live, pickedBefore_succ]
    simp [hnone]
  · next hbreak =>
    refine ⟨cover secret 0 cells, replaceFrom_render h.tidy hsecretNe hclear nofun, ?_,
      tidy_cover h.tidy, fun j ↦ ?_⟩
    · rw [cover_chars, h.chars]
    · rw [live_cover (P := Picked secrets text k) hsecretNe
        (picked_iff h hsecret hne hbreak) drop_zero.symm (fun _ hi' ↦ absurd hi' (Nat.not_lt_zero _))
        (fun hskip ↦ absurd hskip (Nat.lt_irrefl 0)), h.live, pickedBefore_succ, hsecret]
      simp only [Option.getD_some, not_or, and_assoc]

private theorem render_cellsOf (i : Nat) (text : List Char) :
    render i (cellsOf text) = glyphsFrom i text := by
  induction text generalizing i with
  | nil => rfl
  | cons c cs ih => exact congrArg (_ :: ·) (ih (i + 1))

private theorem live_cellsOf {text : List Char} :
    Live i (cellsOf text) j ↔ i ≤ j ∧ j < i + text.length := by
  induction text generalizing i with
  | nil =>
    refine ⟨fun h ↦ h.elim, fun ⟨hle, hlt⟩ ↦ ?_⟩
    rw [length_nil] at hlt
    omega
  | cons c cs ih =>
    have hcons : Live i (cellsOf (c :: cs)) j ↔ j = i ∨ Live (i + 1) (cellsOf cs) j := by
      simp [cellsOf, Live]
    rw [hcons, ih, length_cons]
    omega

private theorem tidy_cellsOf (text : List Char) : Tidy (cellsOf text) := by
  induction text with
  | nil => trivial
  | cons c cs ih =>
    refine ⟨fun _ y hy ↦ ?_, ih⟩
    cases cs with
    | nil => cases hy
    | cons d cs =>
      cases hy
      exact nofun

private theorem stage_zero (secrets : List (List Char)) (text : List Char) :
    Stage secrets text 0 (cellsOf (dropFinalBreak id text)) where
  chars := by simp [cellsOf, Function.comp_def]
  tidy := tidy_cellsOf _
  live j := by
    have hnone : ¬ PickedBefore secrets text 0 j := fun ⟨_, hk, _⟩ ↦ Nat.not_lt_zero _ hk
    simp [live_cellsOf, hnone]

variable (text) in
private theorem logOf_stage (hne : ∀ secret ∈ secrets, secret ≠ [])
    (hclear : ∀ secret ∈ secrets, ClearOfMask secret) :
    ∃ cells, logOf secrets text = render 0 cells ∧ Stage secrets text secrets.length cells := by
  -- the secrets that are left behind the first `k`
  have hfold : ∀ rest k cells, secrets.drop k = rest → k ≤ secrets.length →
      Stage secrets text k cells → ∃ cells', rest.foldl maskStep (render 0 cells) = render 0 cells' ∧
        Stage secrets text secrets.length cells' := by
    intro rest
    induction rest with
    | nil =>
      intro k cells hrest hk hstage
      obtain rfl : k = secrets.length := by
        have := drop_eq_nil_iff.mp hrest
        omega
      exact ⟨cells, rfl, hstage⟩
    | cons secret rest ih =>
      intro k cells hrest hk hstage
      have hsecret : secrets[k]? = some secret := by
        rw [← head?_drop, hrest]
        rfl
      have hlt := (List.getElem?_eq_some_iff.mp hsecret).1
      obtain ⟨cells', hmaskStep, hstage'⟩ :=
        hstage.next hsecret hne (hclear secret (mem_of_getElem? hsecret))
      rw [foldl_cons, hmaskStep]
      refine ih (k + 1) cells' ?_ hlt hstage'
      rw [← tail_drop, hrest]
      rfl
  rw [logOf_eq hne, ← render_cellsOf]
  exact hfold secrets 0 _ rfl (Nat.zero_le _) (stage_zero secrets text)

private theorem exists_fits (htidy : Tidy xs) (hne : secret ≠ []) (hclear : ClearOfMask secret)
    (h : secret <:+: (render i xs).map Glyph.char) : ∃ m, cellsOf secret <+: xs.drop m := by
  induction xs generalizing i with
  | nil =>
    rw [render, map_nil, infix_nil] at h
    exact absurd h hne
  | cons x xs ih =>
    have hrest : secret <:+: (render (i + 1) xs).map Glyph.char →
        ∃ m, cellsOf secret <+: (x :: xs).drop m := by
      intro h
      obtain ⟨m, hm⟩ := ih htidy.2 h
      exact ⟨m + 1, hm⟩
    obtain ⟨c, mark⟩ := x
    cases mark with
    | kept =>
      rw [render, map_cons, infix_cons_iff] at h
      rcases h with h | h
      · refine ⟨0, (prefix_render (i := i) htidy (fun x hx ↦ ?_) hclear.last hclear.inside).mp h⟩
        cases hx
        exact nofun
      · exact hrest h
    | masked =>
      have hstar : ∀ rest : List Char, secret <:+: '*' :: rest → secret <:+: rest := by
        intro rest h
        rcases infix_cons_iff.mp h with h | h
        · obtain ⟨d, secret, rfl⟩ := exists_cons_of_ne_nil hne
          exact absurd (congrArg some (cons_prefix_cons.mp h).1) hclear.head
        · exact h
      exact hrest (hstar _ (hstar _ (hstar _ h)))
    | gone => exact hrest h

private theorem pickedBefore_length :
    PickedBefore secrets text secrets.length j ↔
      ∃ k i', Picked secrets text k i' ∧ i' ≤ j ∧ j < i' + ((secrets[k]?).getD []).length := by
  refine ⟨fun ⟨k, _, hplace⟩ ↦ ⟨k, hplace⟩, fun ⟨k, i', hpicked, hplace⟩ ↦ ?_⟩
  have hk : k < secrets.length := by
    rw [Picked] at hpicked
    obtain ⟨secret, hsecret, -⟩ := hpicked
    exact (List.getElem?_eq_some_iff.mp hsecret).1
  exact ⟨k, hk, i', hpicked, hplace⟩

end

end BnkForge.Container
