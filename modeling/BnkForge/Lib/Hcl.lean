import Mathlib.Data.List.Basic

/-!
# HCL documents

The native syntax of HCL: a scanner that reads one character at a time, the values of quoted templates
and a parser of blocks and attributes. A quoted template may have expressions in it, whose values are
given by a parameter.
-/

namespace Hcl

abbrev Text := List Char

/-! ### Scanning -/

/-- A part of a quoted template: a character, or a sequence that begins with `$` or `%` and a brace,
with what is between its braces. -/
inductive Part
  | char (c : Char)
  | sequence (marker : Char) (content : Text)
  deriving DecidableEq

/-- A token, with its quoted template as an `α`. -/
inductive Token (α : Type)
  | word (text : Text)
  | symbol (c : Char)
  | newline
  | str (template : α)
  deriving DecidableEq

/-- Where the scanner is in the literal part of a quoted template: behind a backslash, in a character
code with so many digits to come, or behind one or two markers. -/
inductive Quoted
  | plain
  | escape
  | code (digits value : Nat)
  | marker (m : Char)
  | markers (m : Char)
  deriving DecidableEq

/-- What is open inside of a template sequence, apart from the sequence itself. -/
inductive Nested
  | brace
  | quote
  | escape
  | marker (m : Char)
  | markers (m : Char)
  deriving DecidableEq

/-- The state of the scanner. The word that is read is kept backwards, and so are the parts of a
template and the content of a sequence. -/
inductive State
  | code (word : Text)
  | slash
  | lineComment
  | blockComment (star : Bool)
  | quoted (parts : List Part) (q : Quoted)
  | template (parts : List Part) (marker : Char) (content : Text) (nested : List Nested)
  deriving DecidableEq

/-- The characters that begin a template sequence before a brace. -/
abbrev IsMarker (c : Char) : Prop := c = '$' ∨ c = '%'

def isWordStart (c : Char) : Bool := c.isAlphanum || c == '_' || 0x7f < c.toNat

def flush (word : Text) : List (Token (List Part)) :=
  if word.isEmpty then [] else [.word word.reverse]

def stepCode (c : Char) : State × List (Token (List Part)) :=
  if isWordStart c then (.code [c], [])
  else if c = ' ' ∨ c = '\t' ∨ c = '\r' then (.code [], [])
  else if c = '\n' then (.code [], [.newline])
  else if c = '"' then (.quoted [] .plain, [])
  else if c = '#' then (.lineComment, [])
  else if c = '/' then (.slash, [])
  else (.code [], [.symbol c])

/-- A character of a template that is not escaped. -/
def stepPlain (parts : List Part) (c : Char) : Option (State × List (Token (List Part))) :=
  if c = '"' then some (.code [], [.str parts.reverse])
  else if c = '\n' ∨ c = '\r' then none
  else if c = '\\' then some (.quoted parts .escape, [])
  else if IsMarker c then some (.quoted parts (.marker c), [])
  else some (.quoted (.char c :: parts) .plain, [])

/-- The characters that a letter behind a backslash stands for. -/
def escapes : List (Char × Char) := [('n', '\n'), ('r', '\r'), ('t', '\t'), ('"', '"'), ('\\', '\\')]

def hexValue (c : Char) : Option Nat :=
  if '0' ≤ c ∧ c ≤ '9' then some (c.toNat - '0'.toNat)
  else if 'a' ≤ c ∧ c ≤ 'f' then some (c.toNat - 'a'.toNat + 10)
  else if 'A' ≤ c ∧ c ≤ 'F' then some (c.toNat - 'A'.toNat + 10)
  else none

/-- The character of a code. -/
def charOf (n : Nat) : Char := if n.isValidChar then Char.ofNat n else '\ufffd'

/-- A character in the literal part of a template. Two markers and a brace stand for one marker and a
brace. -/
def stepQuoted (parts : List Part) : Quoted → Char → Option (State × List (Token (List Part)))
  | .plain, c => stepPlain parts c
  | .escape, c =>
    if c = 'u' then some (.quoted parts (.code 4 0), [])
    else if c = 'U' then some (.quoted parts (.code 8 0), [])
    else (escapes.lookup c).map fun d ↦ (.quoted (.char d :: parts) .plain, [])
  | .code digits value, c => (hexValue c).map fun d ↦
    if digits ≤ 1 then (.quoted (.char (charOf (value * 16 + d)) :: parts) .plain, [])
    else (.quoted parts (.code (digits - 1) (value * 16 + d)), [])
  | .marker m, c =>
    if c = '\x7b' then some (.template parts m [] [], [])
    else if c = m then some (.quoted parts (.markers m), [])
    else stepPlain (.char m :: parts) c
  | .markers m, c =>
    if c = '\x7b' then some (.quoted (.char '\x7b' :: .char m :: parts) .plain, [])
    else if c = m then some (.quoted (.char m :: parts) (.markers m), [])
    else stepPlain (.char m :: .char m :: parts) c

/-- A character in a quoted template inside of a template sequence. -/
def stepNested (nested : List Nested) (c : Char) : Option (List Nested) :=
  if c = '"' then some nested
  else if c = '\n' ∨ c = '\r' then none
  else if c = '\\' then some (.escape :: .quote :: nested)
  else if IsMarker c then some (.marker c :: .quote :: nested)
  else some (.quote :: nested)

/-- What is open behind a character of a template sequence. Nothing is open behind its last brace. -/
def stepSequence : List Nested → Char → Option (Option (List Nested))
  | .escape :: nested, _ => some (some nested)
  | .quote :: nested, c => (stepNested nested c).map some
  | .marker m :: .quote :: nested, c =>
    if c = '\x7b' then some (some (.brace :: .quote :: nested))
    else if c = m then some (some (.markers m :: .quote :: nested))
    else (stepNested nested c).map some
  | .markers m :: .quote :: nested, c =>
    if c = '\x7b' then some (some (.quote :: nested))
    else if c = m then some (some (.markers m :: .quote :: nested))
    else (stepNested nested c).map some
  | nested, c =>
    if c = '\x7b' then some (some (.brace :: nested))
    else if c = '"' then some (some (.quote :: nested))
    else if c = '\x7d' then
      match nested with
      | [] => some none
      | _ :: nested => some (some nested)
    else some (some nested)

/-- One character. -/
def step : State → Char → Option (State × List (Token (List Part)))
  | .code word, c =>
    if isWordStart c ∨ (c = '-' ∧ word ≠ []) then some (.code (c :: word), [])
    else some ((stepCode c).1, flush word ++ (stepCode c).2)
  | .slash, c =>
    if c = '/' then some (.lineComment, [])
    else if c = '*' then some (.blockComment false, [])
    else some ((stepCode c).1, .symbol '/' :: (stepCode c).2)
  | .lineComment, c => if c = '\n' then some (.code [], [.newline]) else some (.lineComment, [])
  | .blockComment star, c =>
    if star ∧ c = '/' then some (.code [], []) else some (.blockComment (c == '*'), [])
  | .quoted parts q, c => stepQuoted parts q c
  | .template parts m content nested, c =>
    (stepSequence nested c).map fun next ↦
      match next with
      | none => (.quoted (.sequence m content.reverse :: parts) .plain, [])
      | some nested => (.template parts m (c :: content) nested, [])

def run : State → Text → Option (State × List (Token (List Part)))
  | s, [] => some (s, [])
  | s, c :: cs => do
    let (s, out) ← step s c
    let (s, out') ← run s cs
    return (s, out ++ out')

/-- The tokens of a document. Its last line is ended. -/
def lex (text : Text) : Option (List (Token (List Part))) := do
  let (s, out) ← run (.code []) (text ++ ['\n'])
  if s = .code [] then return out else none

/-! ### Values -/

/-- The value of a template, where `eval` gives that of an expression. -/
def evalTemplate (eval : Text → Option Text) : List Part → Option Text
  | [] => some []
  | .char c :: parts => (evalTemplate eval parts).map (c :: ·)
  | .sequence _ content :: parts => do
    let value ← eval content
    let rest ← evalTemplate eval parts
    return value ++ rest

def evalToken (eval : Text → Option Text) : Token (List Part) → Option (Token Text)
  | .word text => some (.word text)
  | .symbol c => some (.symbol c)
  | .newline => some .newline
  | .str template => (evalTemplate eval template).map .str

/-! ### Blocks and attributes -/

/-- An expression: a quoted template, words with dots between them (a number, a keyword or a
reference), or an object. -/
inductive Expr
  | str (value : Text)
  | words (parts : List Text)
  | object (items : List (Text × Expr))

inductive Item
  | assign (name : Text) (value : Expr)
  | block (type : Text) (labels : List Text) (body : List Item)

abbrev Body := List Item

def dotted : List (Token Text) → List Text × List (Token Text)
  | .symbol '.' :: .word w :: ts => ((w :: (dotted ts).1), (dotted ts).2)
  | ts => ([], ts)

def labels : List (Token Text) → List Text × List (Token Text)
  | .str s :: ts => ((s :: (labels ts).1), (labels ts).2)
  | ts => ([], ts)

mutual

def parseExpr : Nat → List (Token Text) → Option (Expr × List (Token Text))
  | _, .str s :: ts => some (.str s, ts)
  | _, .word w :: ts => some (.words (w :: (dotted ts).1), (dotted ts).2)
  | fuel + 1, .symbol '\x7b' :: ts => do
    let (items, ts) ← parseObject fuel ts
    return (.object items, ts)
  | _, _ => none

def parseObject : Nat → List (Token Text) → Option (List (Text × Expr) × List (Token Text))
  | 0, _ => none
  | _ + 1, .symbol '\x7d' :: ts => some ([], ts)
  | fuel + 1, .newline :: ts => parseObject fuel ts
  | fuel + 1, .symbol ',' :: ts => parseObject fuel ts
  | fuel + 1, .word name :: .symbol '=' :: ts => do
    let (value, ts) ← parseExpr fuel ts
    let (items, ts) ← parseObject fuel ts
    return ((name, value) :: items, ts)
  | _, _ => none

end

/-- An item ends with its line, with the body around it or with the document. -/
def atEnd : List (Token Text) → Bool
  | [] => true
  | .newline :: _ => true
  | .symbol '\x7d' :: _ => true
  | _ => false

def parseBody : Nat → List (Token Text) → Option (Body × List (Token Text))
  | 0, _ => none
  | _ + 1, [] => some ([], [])
  | _ + 1, .symbol '\x7d' :: ts => some ([], .symbol '\x7d' :: ts)
  | fuel + 1, .newline :: ts => parseBody fuel ts
  | fuel + 1, .word name :: .symbol '=' :: ts => do
    let (value, ts) ← parseExpr fuel ts
    if atEnd ts then
      let (items, ts) ← parseBody fuel ts
      return (.assign name value :: items, ts)
    else none
  | fuel + 1, .word type :: ts => do
    match (labels ts).2 with
    | .symbol '\x7b' :: ts' =>
      let (body, ts') ← parseBody fuel ts'
      match ts' with
      | .symbol '\x7d' :: ts' =>
        if atEnd ts' then
          let (items, ts') ← parseBody fuel ts'
          return (.block type (labels ts).1 body :: items, ts')
        else none
      | _ => none
    | _ => none
  | _, _ => none

def parse (tokens : List (Token Text)) : Option Body := do
  let (body, rest) ← parseBody (tokens.length + 1) tokens
  if rest.isEmpty then return body else none

/-- A document with the values of its templates. -/
def read (eval : Text → Option Text) (text : Text) : Option Body := do
  let tokens ← (← lex text).mapM (evalToken eval)
  parse tokens

/-! ### Literals -/

mutual

/-- The quoted templates of an expression, in their order. -/
def Expr.literals : Expr → List Text
  | .str s => [s]
  | .words _ => []
  | .object items => objectLiterals items

def objectLiterals : List (Text × Expr) → List Text
  | [] => []
  | (_, value) :: items => value.literals ++ objectLiterals items

end

mutual

def Item.literals : Item → List Text
  | .assign _ value => value.literals
  | .block _ labels body => labels ++ bodyLiterals body

def bodyLiterals : List Item → List Text
  | [] => []
  | item :: items => item.literals ++ bodyLiterals items

end

def Token.literal? {α : Type} : Token α → Option α
  | .str s => some s
  | _ => none

def literals {α : Type} (tokens : List (Token α)) : List α := tokens.filterMap Token.literal?

section Parse

variable {α : Type} {ts : List (Token α)}

@[simp] theorem literals_word {w : Text} : literals (.word w :: ts) = literals ts := rfl

@[simp] theorem literals_symbol {c : Char} : literals (.symbol c :: ts) = literals ts := rfl

@[simp] theorem literals_newline : literals (.newline :: ts) = literals ts := rfl

@[simp] theorem literals_str {s : α} : literals (.str s :: ts) = s :: literals ts := rfl

@[simp] theorem literals_append {us : List (Token α)} : literals (ts ++ us) = literals ts ++ literals us :=
  List.filterMap_append

theorem literals_dotted (ts : List (Token Text)) : literals (dotted ts).2 = literals ts := by
  fun_induction dotted ts with
  | case1 w ts ih => simpa using ih
  | case2 ts h => rfl

theorem literals_labels (ts : List (Token Text)) : (labels ts).1 ++ literals (labels ts).2 = literals ts := by
  fun_induction labels ts with
  | case1 s ts ih => simpa using ih
  | case2 ts h => rfl

mutual

/-- The quoted templates of an expression are those of its tokens. -/
theorem literals_parseExpr (fuel : Nat) {ts rest : List (Token Text)} {e : Expr}
    (h : parseExpr fuel ts = some (e, rest)) : literals ts = e.literals ++ literals rest := by
  unfold parseExpr at h
  split at h
  · cases h
    rfl
  · cases h
    simp [Expr.literals, literals_dotted]
  · obtain ⟨⟨items, ts'⟩, hitems, heq⟩ := Option.bind_eq_some_iff.mp h
    cases heq
    simpa [Expr.literals] using literals_parseObject _ hitems
  · cases h
termination_by fuel

theorem literals_parseObject (fuel : Nat) {ts rest : List (Token Text)} {items : List (Text × Expr)}
    (h : parseObject fuel ts = some (items, rest)) :
    literals ts = objectLiterals items ++ literals rest := by
  unfold parseObject at h
  split at h
  · cases h
  · cases h
    rfl
  · simpa using literals_parseObject _ h
  · simpa using literals_parseObject _ h
  · obtain ⟨⟨value, ts'⟩, hvalue, h⟩ := Option.bind_eq_some_iff.mp h
    obtain ⟨⟨items', ts''⟩, hitems, heq⟩ := Option.bind_eq_some_iff.mp h
    cases heq
    simp [objectLiterals, literals_parseExpr _ hvalue, literals_parseObject _ hitems]
  · cases h
termination_by fuel

end

theorem literals_parseBody (fuel : Nat) {ts rest : List (Token Text)} {body : Body}
    (h : parseBody fuel ts = some (body, rest)) : literals ts = bodyLiterals body ++ literals rest := by
  induction fuel generalizing ts rest body with
  | zero => cases h
  | succ fuel ih =>
    unfold parseBody at h
    split at h
    · cases ‹_ = 0›
    · cases h
      rfl
    · cases h
      rfl
    · cases ‹_ = _ + 1›
      simpa using ih h
    · cases ‹_ = _ + 1›
      obtain ⟨⟨value, ts'⟩, hvalue, h⟩ := Option.bind_eq_some_iff.mp h
      obtain ⟨-, h⟩ := Option.ite_none_right_eq_some.mp h
      obtain ⟨⟨items, ts''⟩, hitems, heq⟩ := Option.bind_eq_some_iff.mp h
      cases heq
      simp [bodyLiterals, Item.literals, literals_parseExpr _ hvalue, ih hitems]
    · cases ‹_ = _ + 1›
      split at h
      · next ts' hlabels =>
        obtain ⟨⟨body', ts''⟩, hbody, h⟩ := Option.bind_eq_some_iff.mp h
        dsimp only at h
        split at h
        · obtain ⟨-, h⟩ := Option.ite_none_right_eq_some.mp h
          obtain ⟨⟨items, ts₄⟩, hitems, heq⟩ := Option.bind_eq_some_iff.mp h
          cases heq
          rw [literals_word, ← literals_labels, hlabels]
          simp [bodyLiterals, Item.literals, ih hbody, ih hitems]
        · cases h
      · cases h
    · cases h

/-- The quoted templates of a document are those of its tokens. -/
theorem literals_parse {tokens : List (Token Text)} {body : Body} (h : parse tokens = some body) :
    literals tokens = bodyLiterals body := by
  obtain ⟨⟨body', rest⟩, hbody, h⟩ := Option.bind_eq_some_iff.mp h
  obtain ⟨hrest, h⟩ := Option.ite_none_right_eq_some.mp h
  cases h
  rw [literals_parseBody _ hbody, List.isEmpty_iff.mp hrest]
  exact List.append_nil _

end Parse

end Hcl
