import BnkForge.Catalog.Templates
import BnkForge.Lib.Substitution

/-!
# Rendering as one substitution

A template is meant to be rendered by one substitution of the references in it. `_render_simple_string`
(`backend/services/execution/k8s_catalog_payload.py:400–416`) substitutes twice in a text that is
more than a reference, first for `${name}` and then for the other way to write one, so what the first
pass put in can be expanded by the second (`rendersOnce`).
-/

namespace BnkForge.Templates

open Python Substitution List

/-! ### References as they are written -/

section

variable {p : Delimiters} {cs rest token written : List Char} {c : Char}

/-- A reference to a token: blanks may stand between the token and the delimiters. -/
def Delimiters.Writes (p : Delimiters) (token written : List Char) : Prop :=
  ∃ before after, written = p.opening ++ (before ++ (token ++ (after ++ p.closing))) ∧
    (∀ c ∈ before, isSpace c = true) ∧ (∀ c ∈ after, isSpace c = true) ∧ token ≠ [] ∧
    ∀ c ∈ token, isTokenChar c = true

theorem isSpace_of_isTokenChar (h : isTokenChar c = true) : isSpace c = false :=
  isSpace_of_forall (by decide) h

theorem Delimiters.writes_of_match? (h : p.match? cs = some (token, rest)) :
    ∃ written, p.Writes token written ∧ cs = written ++ rest := by
  rw [match?] at h
  split at h
  · next hopening =>
    obtain ⟨inner, rfl⟩ := isPrefixOf_iff_prefix.mp hopening
    rw [drop_left] at h
    dsimp only at h
    split at h
    · next hfound =>
      rw [Bool.and_eq_true, isPrefixOf_iff_prefix] at hfound
      obtain ⟨hne, ⟨behind, hbehind⟩⟩ := hfound
      rw [← hbehind, drop_left] at h
      cases h
      refine ⟨_, ⟨inner.takeWhile isSpace,
        ((inner.dropWhile isSpace).dropWhile isTokenChar).takeWhile isSpace, rfl,
        fun c hc ↦ mem_takeWhile_imp hc, fun c hc ↦ mem_takeWhile_imp hc, ?_,
        fun c hc ↦ mem_takeWhile_imp hc⟩, ?_⟩
      · simpa using hne
      · simp only [append_assoc, hbehind, takeWhile_append_dropWhile]
    · cases h
  · cases h

theorem isTokenChar_head {after behind : List Char} (hafter : ∀ c ∈ after, isSpace c = true)
    (hbehind : behind.head? = some '\x7d') : ∃ c cs, after ++ behind = c :: cs ∧ isTokenChar c = false := by
  cases after with
  | nil =>
    obtain ⟨cs, rfl⟩ := head?_eq_some_iff.mp hbehind
    exact ⟨_, cs, rfl, by decide⟩
  | cons c after =>
    refine ⟨c, after ++ behind, rfl, ?_⟩
    by_contra h
    have hspace := isSpace_of_isTokenChar (Bool.not_eq_false _ ▸ h)
    rw [hafter c mem_cons_self] at hspace
    cases hspace

theorem Delimiters.Writes.match? (h : p.Writes token written) (hclosing : p.closing.head? = some '\x7d')
    (rest : List Char) : p.match? (written ++ rest) = some (token, rest) := by
  obtain ⟨before, after, rfl, hbefore, hafter, hne, htoken⟩ := h
  obtain ⟨first, token, rfl⟩ := exists_cons_of_ne_nil hne
  have hfirst : isSpace first = false := isSpace_of_isTokenChar (htoken first mem_cons_self)
  have hbehind : (p.closing ++ rest).head? = some '\x7d' := by
    rw [head?_append, hclosing]
    rfl
  obtain ⟨c, cs, hcs, hc⟩ := isTokenChar_head hafter hbehind
  have hclosed : isSpace '\x7d' = false := by decide
  obtain ⟨closing, hclosing⟩ := head?_eq_some_iff.mp hbehind
  have hinner : (before ++ (first :: token ++ (after ++ (p.closing ++ rest)))).dropWhile isSpace =
      first :: token ++ (after ++ (p.closing ++ rest)) := by
    rw [dropWhile_append_of_pos hbefore, cons_append,
      dropWhile_cons_of_neg (by simp [hfirst])]
  have htake : (first :: token ++ (after ++ (p.closing ++ rest))).takeWhile isTokenChar =
      first :: token := by
    rw [takeWhile_append_of_pos htoken, hcs, takeWhile_cons_of_neg (by simp [hc]),
      append_nil]
  have hdrop : (first :: token ++ (after ++ (p.closing ++ rest))).dropWhile isTokenChar =
      after ++ (p.closing ++ rest) := by
    rw [dropWhile_append_of_pos htoken, hcs, dropWhile_cons_of_neg (by simp [hc])]
  have hrest : (after ++ (p.closing ++ rest)).dropWhile isSpace = p.closing ++ rest := by
    rw [dropWhile_append_of_pos hafter, hclosing, dropWhile_cons_of_neg (by simp [hclosed])]
  have hprefix : p.closing.isPrefixOf (p.closing ++ rest) = true :=
    isPrefixOf_iff_prefix.mpr (prefix_append _ _)
  have hopening : p.opening.isPrefixOf (p.opening ++ (before ++ (first :: token ++ (after ++
      (p.closing ++ rest))))) = true := isPrefixOf_iff_prefix.mpr (prefix_append _ _)
  rw [Delimiters.match?]
  simp only [append_assoc]
  rw [if_pos hopening, drop_left, hinner, htake, hdrop, hrest, hprefix, drop_left]
  rfl

theorem varPattern_match?_of_ne (h : c ≠ '$') : varPattern.match? (c :: cs) = none := by
  rw [Delimiters.match?, if_neg]
  simpa [varPattern] using fun hc ↦ absurd hc.symm h

theorem jinjaVarPattern_match?_of_ne (h : c ≠ '\x7b') : jinjaVarPattern.match? (c :: cs) = none := by
  rw [Delimiters.match?, if_neg]
  simpa [jinjaVarPattern] using fun hc ↦ absurd hc.symm h

theorem jinjaVarPattern_match?_of_ne_second (h : c ≠ '\x7b') (first : Char) :
    jinjaVarPattern.match? (first :: c :: cs) = none := by
  rw [Delimiters.match?, if_neg]
  simpa [jinjaVarPattern] using fun _ hc ↦ absurd hc.symm h

theorem Delimiters.Writes.ne_nil (h : p.Writes token written) (hopening : p.opening ≠ []) :
    written ≠ [] := by
  obtain ⟨before, after, rfl, -⟩ := h
  exact append_ne_nil_of_left_ne_nil hopening _

def Delimiters.finder (p : Delimiters) (hopening : p.opening ≠ []) : Finder Char (List Char) where
  find := p.match?
  splits h := by
    obtain ⟨written, hwritten, rfl⟩ := writes_of_match? h
    obtain ⟨c, written, rfl⟩ := List.exists_cons_of_ne_nil (hwritten.ne_nil hopening)
    exact ⟨c, written, rfl⟩

theorem Delimiters.sub_eq (hopening : p.opening ≠ []) (replace : List Char → Option (List Char))
    (skip : Nat) (cs : List Char) :
    p.sub replace skip cs = (p.finder hopening).sub replace skip cs := by
  induction cs generalizing skip with
  | nil => cases skip <;> rfl
  | cons c cs ih =>
    cases skip with
    | succ skip => exact ih skip
    | zero =>
      have hfind : (p.finder hopening).find (c :: cs) = p.match? (c :: cs) := rfl
      rw [sub, Finder.sub, hfind]
      cases p.match? (c :: cs) with
      | none => exact congrArg _ (ih 0)
      | some hit => exact congrArg _ (ih _)

/-- `_VAR_PATTERN`. -/
def varFinder : Finder Char (List Char) := varPattern.finder (by decide)

/-- `_JINJA_VAR_PATTERN`. -/
def jinjaFinder : Finder Char (List Char) := jinjaVarPattern.finder (by decide)

theorem ne_of_mem_body {before after : List Char} (hbefore : ∀ c ∈ before, isSpace c = true)
    (htoken : ∀ c ∈ token, isTokenChar c = true) (hafter : ∀ c ∈ after, isSpace c = true)
    (h : c ∈ before ++ (token ++ (after ++ ['\x7d', '\x7d']))) : c ≠ '\x7b' ∧ c ≠ '$' := by
  simp only [mem_append, mem_cons, not_mem_nil, or_false, or_self] at h
  rcases h with h | h | h | rfl
  · have hspace := hbefore c h
    constructor <;> rintro rfl <;> revert hspace <;> decide
  · have hchar := htoken c h
    constructor <;> rintro rfl <;> revert hchar <;> decide
  · have hspace := hafter c h
    constructor <;> rintro rfl <;> revert hspace <;> decide
  · decide

theorem match?_inner (h : jinjaVarPattern.Writes token (c :: written)) {inner : List Char}
    (hinner : inner <:+ written) (hne : inner ≠ []) :
    varPattern.match? (inner ++ rest) = none ∧ jinjaVarPattern.match? (inner ++ rest) = none := by
  obtain ⟨before, after, heq, hbefore, hafter, -, htoken⟩ := h
  obtain rfl := (List.cons.inj heq).2
  obtain ⟨d, inner, rfl⟩ := exists_cons_of_ne_nil hne
  have hbody : ∀ c ∈ before ++ (token ++ (after ++ ['\x7d', '\x7d'])), c ≠ '\x7b' ∧ c ≠ '$' :=
    fun c hc ↦ ne_of_mem_body hbefore htoken hafter hc
  obtain hwhole | hsuffix := suffix_cons_iff.mp hinner
  · obtain ⟨rfl, rfl⟩ := List.cons.inj hwhole
    obtain ⟨e, body, hcons⟩ := exists_cons_of_ne_nil
      (show before ++ (token ++ (after ++ ['\x7d', '\x7d'])) ≠ [] by simp)
    refine ⟨varPattern_match?_of_ne (by decide), ?_⟩
    change jinjaVarPattern.match? ('\x7b' :: ((before ++ (token ++ (after ++ ['\x7d', '\x7d']))) ++ rest)) =
      none
    rw [hcons] at hbody ⊢
    exact jinjaVarPattern_match?_of_ne_second (hbody e mem_cons_self).1 '\x7b'
  · obtain ⟨hd, hd'⟩ := hbody d (hsuffix.mem mem_cons_self)
    exact ⟨varPattern_match?_of_ne hd', jinjaVarPattern_match?_of_ne hd⟩

theorem jinjaFinder_apart : jinjaFinder.Apart := by
  intro c written rest token hfind inner hinner hne
  obtain ⟨written', hwritten, heq⟩ := Delimiters.writes_of_match? hfind
  have hcons : written' ++ rest = (c :: written) ++ rest := heq.symm
  obtain rfl := append_cancel_right hcons
  exact (match?_inner hwritten hinner hne).2

end

/-! ### One substitution -/

inductive Reference
  | var (token : List Char)
  | jinjaVar (token : List Char)
  deriving DecidableEq, Repr

def Reference.token : Reference → List Char
  | var token => token
  | jinjaVar token => token

/-- How a reference is written. -/
def Reference.Writes : Reference → List Char → Prop
  | var token => varPattern.Writes token
  | jinjaVar token => jinjaVarPattern.Writes token

def references : Finder Char Reference where
  find cs :=
    match varPattern.match? cs with
    | some (token, rest) => some (.var token, rest)
    | none =>
      match jinjaVarPattern.match? cs with
      | some (token, rest) => some (.jinjaVar token, rest)
      | none => none
  splits h := by
    split at h
    · next hfind =>
      cases h
      exact varFinder.splits hfind
    · split at h
      · next hfind =>
        cases h
        exact jinjaFinder.splits hfind
      · cases h

section

variable (repr : Value → String) (vars : String → Option Value)

def valueText (token : List Char) : Option (List Char) :=
  (lookupVar vars token).map fun value ↦ (value.toText repr).toList

def substituteOnce (text : List Char) : List Char :=
  references.sub (fun reference ↦ valueText repr vars reference.token) 0 text

def renderStringOnce (text : String) : Value :=
  match references.pieces 0 (strip text.toList) with
  | [.found _ reference] => (lookupVar vars reference.token).getD (.str text)
  | _ => .str (String.ofList (substituteOnce repr vars text.toList))

mutual

def renderOnce : Value → Value
  | .dict items => .dict (renderItemsOnce items)
  | .list items => .list (renderListOnce items)
  | .str text => renderStringOnce repr vars text
  | value => value

def renderListOnce : List Value → List Value
  | [] => []
  | value :: values => renderOnce value :: renderListOnce values

def renderItemsOnce : List (String × Value) → List (String × Value)
  | [] => []
  | (key, value) :: items => (key, renderOnce value) :: renderItemsOnce items

end

mutual

def texts : Value → List String
  | .dict items => textsOfItems items
  | .list items => textsOfList items
  | .str text => [text]
  | _ => []

def textsOfList : List Value → List String
  | [] => []
  | value :: values => texts value ++ textsOfList values

def textsOfItems : List (String × Value) → List String
  | [] => []
  | (_, value) :: items => texts value ++ textsOfItems items

end

/-! ### Texts that the second pass leaves alone -/

def afterVars : Piece Char Reference → List Char
  | .plain c => [c]
  | .found written (.var token) => (referenceText repr vars token).getD written
  | .found written (.jinjaVar _) => written

def Silent (text : List Char) (pieces : List (Piece Char Reference)) : Prop :=
  ∀ inner, inner <:+ text → inner ≠ [] →
    jinjaFinder.Inert (referenceText repr vars) (inner ++ pieces.flatMap (afterVars repr vars))

/-- Once the `${name}` references are replaced, no reference of the other kind to a variable with a
value begins but where one was. -/
def NoNewReference : List (Piece Char Reference) → Prop
  | [] => True
  | .plain c :: pieces => Silent repr vars [c] pieces ∧ NoNewReference pieces
  | .found written (.var token) :: pieces =>
    Silent repr vars ((referenceText repr vars token).getD written) pieces ∧ NoNewReference pieces
  | .found _ (.jinjaVar _) :: pieces => NoNewReference pieces

/-- No reference is to a variable that is `None`. -/
def NoNone (pieces : List (Piece Char Reference)) : Prop :=
  ∀ written reference, .found written reference ∈ pieces → lookupVar vars reference.token ≠ some .none

/-- The text is a reference, or one that the second pass leaves alone. -/
def Stable (text : String) : Prop :=
  (∃ written reference, references.pieces 0 (strip text.toList) = [.found written reference]) ∨
    NoNone vars (references.pieces 0 text.toList) ∧
      NoNewReference repr vars (references.pieces 0 text.toList)

end

section

variable {repr : Value → String} {vars : String → Option Value}
variable {c : Char} {cs rest written token : List Char} {reference : Reference}
variable {pieces : List (Piece Char Reference)}

theorem references_none (h : references.find cs = none) :
    varPattern.match? cs = none ∧ jinjaVarPattern.match? cs = none := by
  dsimp only [references] at h
  split at h
  · cases h
  · next hvar =>
    split at h
    · cases h
    · next hjinja => exact ⟨hvar, hjinja⟩

theorem references_var (h : references.find cs = some (.var token, rest)) :
    varPattern.match? cs = some (token, rest) := by
  dsimp only [references] at h
  split at h
  · next hvar =>
    cases h
    exact hvar
  · split at h <;> cases h

theorem references_jinjaVar (h : references.find cs = some (.jinjaVar token, rest)) :
    varPattern.match? cs = none ∧ jinjaVarPattern.match? cs = some (token, rest) := by
  dsimp only [references] at h
  split at h
  · cases h
  · next hvar =>
    split at h
    · next hjinja =>
      cases h
      exact ⟨hvar, hjinja⟩
    · cases h

theorem writes_of_find {p : Delimiters} (h : p.match? (written ++ rest) = some (token, rest)) :
    p.Writes token written := by
  obtain ⟨written', hwritten, heq⟩ := Delimiters.writes_of_match? h
  obtain rfl := append_cancel_right heq
  exact hwritten

theorem writes_of_mem_pieces (h : .found written reference ∈ references.pieces 0 cs) :
    reference.Writes written := by
  induction cs using references.induction with
  | nil => cases h
  | plain c cs hnone ih =>
    rw [Finder.pieces_of_none hnone] at h
    exact ih ((mem_cons.mp h).resolve_left (by simp))
  | found c written' rest reference' hsome ih =>
    rw [Finder.pieces_of_some hsome] at h
    obtain heq | h := mem_cons.mp h
    · cases heq
      have hsome : references.find ((c :: written') ++ rest) = some (reference, rest) := hsome
      cases reference with
      | var token => exact writes_of_find (references_var hsome)
      | jinjaVar token => exact writes_of_find (references_jinjaVar hsome).2
    · exact ih h

/-- The first pass replaces the `${name}` references. -/
theorem varSub_eq (cs : List Char) : varPattern.sub (referenceText repr vars) 0 cs =
    (references.pieces 0 cs).flatMap (afterVars repr vars) := by
  rw [Delimiters.sub_eq (by decide)]
  change varFinder.sub _ 0 cs = _
  induction cs using references.induction with
  | nil => rfl
  | plain c cs hnone ih =>
    rw [Finder.pieces_of_none hnone, Finder.sub_of_none (references_none hnone).1, flatMap_cons, ih]
    rfl
  | found c written rest reference hsome ih =>
    rw [Finder.pieces_of_some hsome, flatMap_cons, ← ih]
    cases reference with
    | var token => exact Finder.sub_of_some (references_var hsome)
    | jinjaVar token =>
      obtain ⟨hvar, hjinja⟩ := references_jinjaVar hsome
      have hwrites : jinjaVarPattern.Writes token (c :: written) := writes_of_find hjinja
      rw [Finder.sub_of_none hvar, Finder.sub_append_of_none fun inner hinner hne ↦
        (match?_inner hwrites hinner hne).1]
      rfl

theorem jinjaSub_found {replace : List Char → Option (List Char)}
    (h : jinjaVarPattern.Writes token written) (rest : List Char) :
    jinjaFinder.sub replace 0 (written ++ rest) =
      (replace token).getD written ++ jinjaFinder.sub replace 0 rest := by
  have hfind := h.match? rfl rest
  obtain ⟨c, written, rfl⟩ := exists_cons_of_ne_nil (h.ne_nil (by decide))
  exact Finder.sub_of_some hfind

theorem jinjaSub_eq (hwrites : ∀ written reference, .found written reference ∈ pieces →
      reference.Writes written) (hnew : NoNewReference repr vars pieces) :
    jinjaFinder.sub (referenceText repr vars) 0 (pieces.flatMap (afterVars repr vars)) =
      pieces.flatMap (Piece.text fun reference ↦ referenceText repr vars reference.token) := by
  induction pieces with
  | nil => rfl
  | cons piece pieces ih =>
    have htail := ih fun written reference hmem ↦ hwrites _ _ (mem_cons_of_mem _ hmem)
    rw [flatMap_cons, flatMap_cons]
    match piece, hnew with
    | .plain c, ⟨hsilent, hnew⟩ =>
      rw [← htail hnew]
      exact Finder.sub_append_of_inert jinjaFinder_apart hsilent
    | .found written (.var token), ⟨hsilent, hnew⟩ =>
      rw [← htail hnew]
      exact Finder.sub_append_of_inert jinjaFinder_apart hsilent
    | .found written (.jinjaVar token), hnew =>
      rw [← htail hnew]
      have hwritten : jinjaVarPattern.Writes token written := hwrites _ _ mem_cons_self
      exact jinjaSub_found hwritten _

/-- Without `None` a reference is replaced by the text of its variable. -/
theorem referenceText_eq (h : lookupVar vars token ≠ some .none) :
    referenceText repr vars token = valueText repr vars token := by
  rw [referenceText, valueText]
  cases hlookup : lookupVar vars token with
  | none => rfl
  | some value =>
    cases value with
    | none => exact absurd hlookup h
    | _ => rfl

theorem referenceText_none (h : lookupVar vars token = some .none) :
    referenceText repr vars token = none := by
  rw [referenceText, h]

theorem flatMap_text_eq (h : NoNone vars pieces) :
    pieces.flatMap (Piece.text fun reference ↦ referenceText repr vars reference.token) =
      pieces.flatMap (Piece.text fun reference ↦ valueText repr vars reference.token) := by
  apply flatMap_congr
  intro piece hpiece
  cases piece with
  | plain c => rfl
  | found written reference => exact congrArg (Option.getD · written) (referenceText_eq (h _ _ hpiece))

theorem substituteOnce_eq (text : List Char) : substituteOnce repr vars text =
    (references.pieces 0 text).flatMap
      (Piece.text fun reference ↦ valueText repr vars reference.token) :=
  Finder.sub_eq_pieces text

theorem renderSimpleString_eq (text : List Char) : renderSimpleString repr vars text =
    jinjaFinder.sub (referenceText repr vars) 0
      ((references.pieces 0 text).flatMap (afterVars repr vars)) := by
  rw [renderSimpleString, varSub_eq, Delimiters.sub_eq (by decide)]
  rfl

theorem renderSimpleString_of_noNewReference {text : List Char}
    (hnone : NoNone vars (references.pieces 0 text))
    (hnew : NoNewReference repr vars (references.pieces 0 text)) :
    renderSimpleString repr vars text = substituteOnce repr vars text := by
  rw [renderSimpleString_eq, jinjaSub_eq (fun _ _ hmem ↦ writes_of_mem_pieces hmem) hnew,
    flatMap_text_eq hnone, substituteOnce_eq]

theorem fullmatch_of_none {p : Delimiters} (h : p.match? cs = none) : p.fullmatch cs = none := by
  rw [Delimiters.fullmatch, h]

theorem fullmatch_of_some {p : Delimiters} (h : p.match? cs = some (token, rest)) :
    p.fullmatch cs = if rest = [] then some token else none := by
  rw [Delimiters.fullmatch, h]
  cases rest <;> rfl

theorem fullmatch_eq (cs : List Char) :
    (varPattern.fullmatch cs).or (jinjaVarPattern.fullmatch cs) =
      match references.pieces 0 cs with
      | [.found _ reference] => some reference.token
      | _ => none := by
  cases cs with
  | nil => rfl
  | cons c cs =>
    cases hfind : references.find (c :: cs) with
    | none =>
      obtain ⟨hvar, hjinja⟩ := references_none hfind
      rw [fullmatch_of_none hvar, fullmatch_of_none hjinja, Finder.pieces_of_none hfind]
      rfl
    | some hit =>
      obtain ⟨reference, rest⟩ := hit
      obtain ⟨c', written, hsplit⟩ := references.splits hfind
      rw [hsplit] at hfind ⊢
      rw [Finder.pieces_of_some hfind]
      have hboth : (varPattern.fullmatch (c' :: (written ++ rest))).or
          (jinjaVarPattern.fullmatch (c' :: (written ++ rest))) =
            if rest = [] then some reference.token else none := by
        cases reference with
        | var token =>
          have hvar := references_var hfind
          obtain rfl : c' = '$' := by
            by_contra hne
            rw [varPattern_match?_of_ne hne] at hvar
            cases hvar
          rw [fullmatch_of_some hvar, fullmatch_of_none (jinjaVarPattern_match?_of_ne (by decide)),
            Option.or_none]
          rfl
        | jinjaVar token =>
          obtain ⟨hvar, hjinja⟩ := references_jinjaVar hfind
          rw [fullmatch_of_none hvar, fullmatch_of_some hjinja, Option.none_or]
          rfl
      rw [hboth]
      by_cases hrest : rest = []
      · rw [if_pos hrest, hrest]
        rfl
      · obtain ⟨piece, pieces, hpieces⟩ := exists_cons_of_ne_nil
          (Finder.pieces_eq_nil_iff.not.mpr hrest : references.pieces 0 rest ≠ [])
        rw [if_neg hrest, hpieces]

/-- The text of every variable with a value begins with something else than a brace. -/
def Telling (repr : Value → String) (vars : String → Option Value) : Prop :=
  ∀ token text, referenceText repr vars token = some text →
    ∃ d text', text = d :: text' ∧ d ≠ '\x7b'

theorem jinjaFinder_telling (h : Telling repr vars) :
    jinjaFinder.Telling (referenceText repr vars) := by
  intro c cs token rest text hfind hreplace
  obtain ⟨d, text', rfl, hd⟩ := h token text hreplace
  refine ⟨d, text', rfl, ?_⟩
  rintro rfl
  have hnone : jinjaFinder.find (d :: cs) = none := jinjaVarPattern_match?_of_ne hd
  rw [hnone] at hfind
  cases hfind

theorem valueText_none (h : lookupVar vars token = some .none) :
    valueText repr vars token = some ['N', 'o', 'n', 'e'] := by
  rw [valueText, h, Option.map_some, Value.toText]
  rfl

/-- The two passes do not write `None` for a reference. -/
theorem jinjaSub_ne_none {rest after : List Char} (hwrites : reference.Writes written)
    (h : lookupVar vars reference.token = some .none) :
    jinjaFinder.sub (referenceText repr vars) 0
        (afterVars repr vars (.found written reference) ++ rest) ≠
      (valueText repr vars reference.token).getD written ++ after := by
  rw [valueText_none h]
  intro heq
  cases reference with
  | var token =>
    obtain ⟨cs, rfl⟩ : ∃ cs, written = '$' :: cs := by
      obtain ⟨before, after, rfl, -⟩ := hwrites
      exact ⟨_, rfl⟩
    have hne : '$' ≠ '\x7b' := by decide
    have hmatch : jinjaVarPattern.match? ('$' :: (cs ++ rest)) = none :=
      jinjaVarPattern_match?_of_ne hne
    have hfind : jinjaFinder.find ('$' :: (cs ++ rest)) = none := hmatch
    have htext : referenceText repr vars token = none := referenceText_none h
    rw [afterVars, htext, Option.getD_none, cons_append, Finder.sub_of_none hfind] at heq
    exact absurd (List.cons.inj heq).1 (by decide)
  | jinjaVar token =>
    have htext : referenceText repr vars token = none := referenceText_none h
    rw [afterVars, jinjaSub_found hwrites, htext, Option.getD_none] at heq
    obtain ⟨before, after, rfl, -⟩ := hwrites
    exact absurd (List.cons.inj heq).1 (by decide)

theorem noNewReference_of_eq (htelling : Telling repr vars)
    (hwrites : ∀ written reference, .found written reference ∈ pieces → reference.Writes written)
    (h : jinjaFinder.sub (referenceText repr vars) 0 (pieces.flatMap (afterVars repr vars)) =
      pieces.flatMap (Piece.text fun reference ↦ valueText repr vars reference.token)) :
    NoNone vars pieces ∧ NoNewReference repr vars pieces := by
  induction pieces with
  | nil => exact ⟨fun _ _ hmem ↦ absurd hmem not_mem_nil, trivial⟩
  | cons piece pieces ih =>
    have htail := ih fun written reference hmem ↦ hwrites _ _ (mem_cons_of_mem _ hmem)
    rw [flatMap_cons, flatMap_cons] at h
    cases piece with
    | plain c =>
      obtain ⟨hsilent, h⟩ := Finder.inert_of_sub_append jinjaFinder_apart
        (jinjaFinder_telling htelling) h
      obtain ⟨hnone, hnew⟩ := htail h
      refine ⟨?_, hsilent, hnew⟩
      intro written reference hmem
      exact hnone written reference ((mem_cons.mp hmem).resolve_left (by simp))
    | found written reference =>
      have hwritten := hwrites _ _ mem_cons_self
      have hvalue : lookupVar vars reference.token ≠ some .none :=
        fun hnone ↦ jinjaSub_ne_none hwritten hnone h
      have hnone : NoNone vars pieces → NoNone vars (.found written reference :: pieces) := by
        intro hnone written' reference' hmem
        obtain heq | hmem := mem_cons.mp hmem
        · cases heq
          exact hvalue
        · exact hnone _ _ hmem
      have htext : (referenceText repr vars reference.token).getD written =
          Piece.text (fun reference ↦ valueText repr vars reference.token) (.found written reference) :=
        congrArg (Option.getD · written) (referenceText_eq hvalue)
      rw [← htext] at h
      cases reference with
      | var token =>
        obtain ⟨hsilent, h⟩ := Finder.inert_of_sub_append jinjaFinder_apart
          (jinjaFinder_telling htelling) h
        obtain ⟨hrest, hnew⟩ := htail h
        exact ⟨hnone hrest, hsilent, hnew⟩
      | jinjaVar token =>
        obtain ⟨hrest, hnew⟩ := htail (append_cancel_left ((jinjaSub_found hwritten _).symm.trans h))
        exact ⟨hnone hrest, hnew⟩

/-! ### Templates -/

theorem renderString_of_reference {text : String}
    (h : references.pieces 0 (strip text.toList) = [.found written reference]) :
    renderStringValue repr vars text = renderStringOnce repr vars text := by
  rw [renderStringValue, renderStringOnce, fullmatch_eq, h]

theorem renderString_of_mixed {text : String}
    (h : ¬∃ written reference, references.pieces 0 (strip text.toList) = [.found written reference]) :
    renderStringValue repr vars text =
        .str (String.ofList (renderSimpleString repr vars text.toList)) ∧
      renderStringOnce repr vars text =
        .str (String.ofList (substituteOnce repr vars text.toList)) := by
  rw [renderStringValue, renderStringOnce, fullmatch_eq]
  split
  · next heq =>
    split at heq
    · next hpieces => exact absurd ⟨_, _, hpieces⟩ h
    · cases heq
  · split
    · next hpieces => exact absurd ⟨_, _, hpieces⟩ h
    · exact ⟨rfl, rfl⟩

theorem renderStringValue_of_stable {text : String} (h : Stable repr vars text) :
    renderStringValue repr vars text = renderStringOnce repr vars text := by
  by_cases hreference : ∃ written reference,
      references.pieces 0 (strip text.toList) = [.found written reference]
  · obtain ⟨written, reference, hpieces⟩ := hreference
    exact renderString_of_reference hpieces
  · obtain ⟨hnone, hnew⟩ := h.resolve_left hreference
    rw [(renderString_of_mixed hreference).1, (renderString_of_mixed hreference).2,
      renderSimpleString_of_noNewReference hnone hnew]

theorem stable_of_renderStringValue (htelling : Telling repr vars) {text : String}
    (h : renderStringValue repr vars text = renderStringOnce repr vars text) :
    Stable repr vars text := by
  by_cases hreference : ∃ written reference,
      references.pieces 0 (strip text.toList) = [.found written reference]
  · exact .inl hreference
  · rw [(renderString_of_mixed hreference).1, (renderString_of_mixed hreference).2] at h
    have htext := String.ofList_injective (Value.str.inj h)
    rw [renderSimpleString_eq, substituteOnce_eq] at htext
    exact .inr (noNewReference_of_eq htelling (fun _ _ hmem ↦ writes_of_mem_pieces hmem) htext)

mutual

theorem renderTemplateObj_eq_iff (value : Value) :
    renderTemplateObj repr vars value = renderOnce repr vars value ↔
      ∀ text ∈ texts value, renderStringValue repr vars text = renderStringOnce repr vars text := by
  cases value with
  | dict items =>
    rw [renderTemplateObj, renderOnce, texts, Value.dict.injEq]
    exact renderItems_eq_iff items
  | list items =>
    rw [renderTemplateObj, renderOnce, texts, Value.list.injEq]
    exact renderList_eq_iff items
  | str text => simp [renderTemplateObj, renderOnce, texts]
  | none => simp [renderTemplateObj, renderOnce, texts]
  | bool b => simp [renderTemplateObj, renderOnce, texts]
  | int n => simp [renderTemplateObj, renderOnce, texts]
  | float x => simp [renderTemplateObj, renderOnce, texts]

theorem renderList_eq_iff (values : List Value) :
    renderList repr vars values = renderListOnce repr vars values ↔
      ∀ text ∈ textsOfList values,
        renderStringValue repr vars text = renderStringOnce repr vars text := by
  cases values with
  | nil => simp [renderList, renderListOnce, textsOfList]
  | cons value values =>
    rw [renderList, renderListOnce, textsOfList, List.cons.injEq, renderTemplateObj_eq_iff value,
      renderList_eq_iff values, forall_mem_append]

theorem renderItems_eq_iff (items : List (String × Value)) :
    renderItems repr vars items = renderItemsOnce repr vars items ↔
      ∀ text ∈ textsOfItems items,
        renderStringValue repr vars text = renderStringOnce repr vars text := by
  cases items with
  | nil => simp [renderItems, renderItemsOnce, textsOfItems]
  | cons item items =>
    obtain ⟨key, value⟩ := item
    rw [renderItems, renderItemsOnce, textsOfItems, List.cons.injEq, Prod.mk.injEq,
      renderTemplateObj_eq_iff value, renderItems_eq_iff items, forall_mem_append,
      eq_self_iff_true, true_and]

end

/-- A template whose texts are references, or left alone by the second pass, is rendered by one
substitution; with values that begin with something else than a brace, no other template is. -/
theorem rendersOnce (value : Value) :
    ((∀ text ∈ texts value, Stable repr vars text) →
      renderTemplateObj repr vars value = renderOnce repr vars value) ∧
    (Telling repr vars → renderTemplateObj repr vars value = renderOnce repr vars value →
      ∀ text ∈ texts value, Stable repr vars text) := by
  rw [renderTemplateObj_eq_iff]
  exact ⟨fun h text htext ↦ renderStringValue_of_stable (h text htext),
    fun htelling h text htext ↦ stable_of_renderStringValue htelling (h text htext)⟩

end

def SameReferences (vars : String → Option Value) (pieces pieces' : List (Piece Char Reference)) : Prop :=
  List.Forall₂ (fun piece piece' ↦ piece = piece' ∨ ∃ written reference written' reference',
    piece = .found written reference ∧ piece' = .found written' reference' ∧
      reference.token = reference'.token ∧ (lookupVar vars reference.token).isSome) pieces pieces'

theorem substituteOnce_of_sameReferences {repr : Value → String} {vars : String → Option Value}
    {text text' : List Char}
    (h : SameReferences vars (references.pieces 0 text) (references.pieces 0 text')) :
    substituteOnce repr vars text = substituteOnce repr vars text' := by
  rw [substituteOnce_eq, substituteOnce_eq]
  revert h
  generalize references.pieces 0 text = pieces
  generalize references.pieces 0 text' = pieces'
  intro h
  induction h with
  | nil => rfl
  | cons hpiece _ ih =>
    rw [flatMap_cons, flatMap_cons, ih]
    obtain rfl | ⟨written, reference, written', reference', rfl, rfl, htoken, hknown⟩ := hpiece
    · rfl
    · obtain ⟨value, hvalue⟩ := Option.isSome_iff_exists.mp hknown
      rw [Piece.text, Piece.text, ← htoken, valueText, hvalue]
      rfl

theorem silent_of_notMem {repr : Value → String} {vars : String → Option Value} {text : List Char}
    (h : '\x7b' ∉ text) (pieces : List (Piece Char Reference)) : Silent repr vars text pieces := by
  intro inner hinner hne token rest hfind
  obtain ⟨c, inner, rfl⟩ := exists_cons_of_ne_nil hne
  have hc : c ≠ '\x7b' := by
    rintro rfl
    exact h (hinner.mem mem_cons_self)
  rw [cons_append] at hfind
  have hmatch : jinjaVarPattern.match? (c :: (inner ++ pieces.flatMap (afterVars repr vars))) = none :=
    jinjaVarPattern_match?_of_ne hc
  cases hmatch.symm.trans hfind

def replicaVariables (name : String) : Option Value := if name = "n" then some (.int 3) else none

/-- A text around a reference to a number is rendered by one substitution. -/
theorem rendersOnce_replicas :
    renderTemplateObj (fun _ ↦ "") replicaVariables (.list [.str "${n}", .str "${n}!"]) =
      renderOnce (fun _ ↦ "") replicaVariables (.list [.str "${n}", .str "${n}!"]) := by
  refine (rendersOnce _).1 ?_
  intro text htext
  obtain rfl | htext := List.mem_cons.mp htext
  · exact .inl ⟨"${n}".toList, .var ['n'], rfl⟩
  · obtain rfl := List.mem_singleton.mp htext
    have hpieces : references.pieces 0 "${n}!".toList =
        [.found "${n}".toList (.var ['n']), .plain '!'] := rfl
    refine .inr ?_
    rw [hpieces]
    refine ⟨?_, silent_of_notMem (by decide) _, silent_of_notMem (by decide) _, trivial⟩
    intro written reference hmem
    obtain heq | hmem := List.mem_cons.mp hmem
    · cases heq
      have hvalue : lookupVar replicaVariables ['n'] = some (.int 3) := rfl
      rw [Reference.token, hvalue]
      simp
    · cases List.mem_singleton.mp hmem

def greetingVariables (name : String) : Option Value :=
  if name = "name" then some (.str "\x7b\x7b admin \x7d\x7d")
  else if name = "admin" then some (.str "secret") else none

/-- The value of `name` is expanded where it is referred to in the first way, and not in the other. -/
theorem value_expanded :
    renderTemplateObj (fun _ ↦ "") greetingVariables (.str "hi ${name}") = .str "hi secret" ∧
      renderOnce (fun _ ↦ "") greetingVariables (.str "hi ${name}") =
        .str "hi \x7b\x7b admin \x7d\x7d" ∧
      renderTemplateObj (fun _ ↦ "") greetingVariables (.str "hi \x7b\x7bname\x7d\x7d") =
        .str "hi \x7b\x7b admin \x7d\x7d" ∧
      renderTemplateObj (fun _ ↦ "") greetingVariables (.str "hi ${name}") ≠
        renderOnce (fun _ ↦ "") greetingVariables (.str "hi ${name}") := by
  have hcode : renderTemplateObj (fun _ ↦ "") greetingVariables (.str "hi ${name}") =
      .str "hi secret" := by rfl
  have honce : renderOnce (fun _ ↦ "") greetingVariables (.str "hi ${name}") =
      .str "hi \x7b\x7b admin \x7d\x7d" := by rfl
  refine ⟨hcode, honce, by rfl, ?_⟩
  rw [hcode, honce]
  simp

end BnkForge.Templates
