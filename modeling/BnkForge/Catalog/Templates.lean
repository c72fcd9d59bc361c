import BnkForge.Lib.PythonValue

/-!
# References to variables in templates

`_render_template_obj` with `_render_string_value` and `_render_simple_string`
(`backend/services/execution/k8s_catalog_payload.py:21–22,356–440`). The variables are read by name
only; how floats, lists and dicts print is a parameter.
-/

namespace BnkForge.Templates

open Python

/-- A character of `[a-zA-Z0-9_.-]`. -/
def isTokenChar (c : Char) : Bool := c.isAlphanum || c == '_' || c == '.' || c == '-'

/-- How a reference is written: `_VAR_PATTERN` or `_JINJA_VAR_PATTERN`. -/
structure Delimiters where
  opening : List Char
  closing : List Char

/-- `${token}`. -/
def varPattern : Delimiters := ⟨['$', '\x7b'], ['\x7d']⟩

/-- Two braces on each side of the token. -/
def jinjaVarPattern : Delimiters := ⟨['\x7b', '\x7b'], ['\x7d', '\x7d']⟩

/-- The token of a reference at the start of a text, and the text behind it. -/
def Delimiters.match? (p : Delimiters) (cs : List Char) : Option (List Char × List Char) :=
  if p.opening.isPrefixOf cs then
    let inner := (cs.drop p.opening.length).dropWhile isSpace
    let token := inner.takeWhile isTokenChar
    let rest := (inner.dropWhile isTokenChar).dropWhile isSpace
    if !token.isEmpty && p.closing.isPrefixOf rest then some (token, rest.drop p.closing.length)
    else none
  else none

/-- `pattern.fullmatch(text)`. -/
def Delimiters.fullmatch (p : Delimiters) (cs : List Char) : Option (List Char) :=
  match p.match? cs with
  | some (token, []) => some token
  | _ => none

/-- `pattern.sub(replace, text)`, with `skip` characters of a match still to be passed over; where
`replace` has no text the reference stays. -/
def Delimiters.sub (p : Delimiters) (replace : List Char → Option (List Char)) :
    Nat → List Char → List Char
  | _, [] => []
  | skip + 1, _ :: cs => p.sub replace skip cs
  | 0, c :: cs =>
    match p.match? (c :: cs) with
    | none => c :: p.sub replace 0 cs
    | some (token, rest) =>
      let width := (c :: cs).length - rest.length
      (replace token).getD ((c :: cs).take width) ++ p.sub replace (width - 1) cs

section

variable (repr : Value → String) (vars : String → Option Value)

/-- `_lookup_var`, `none` where `_var_exists` is false. -/
def lookupVar (token : List Char) : Option Value :=
  match vars (String.ofList token) with
  | some value => some value
  | none => if "var.".toList.isPrefixOf token then vars (String.ofList (token.drop 4)) else none

def referenceText (token : List Char) : Option (List Char) :=
  match lookupVar vars token with
  | none | some .none => none
  | some value => some (value.toText repr).toList

/-- `_render_simple_string`. -/
def renderSimpleString (text : List Char) : List Char :=
  jinjaVarPattern.sub (referenceText repr vars) 0 (varPattern.sub (referenceText repr vars) 0 text)

/-- `_render_string_value`: a text that is one reference has the value of the variable. -/
def renderStringValue (text : String) : Value :=
  match (varPattern.fullmatch (strip text.toList)).or (jinjaVarPattern.fullmatch (strip text.toList)) with
  | some token => (lookupVar vars token).getD (.str text)
  | none => .str (String.ofList (renderSimpleString repr vars text.toList))

mutual

/-- `_render_template_obj`. -/
def renderTemplateObj : Value → Value
  | .dict items => .dict (renderItems items)
  | .list items => .list (renderList items)
  | .str text => renderStringValue repr vars text
  | value => value

def renderList : List Value → List Value
  | [] => []
  | value :: values => renderTemplateObj value :: renderList values

def renderItems : List (String × Value) → List (String × Value)
  | [] => []
  | (key, value) :: items => (key, renderTemplateObj value) :: renderItems items

end

end

/-- References are replaced inside a text, and a text that is one keeps the type of its value. -/
example : renderTemplateObj (fun _ ↦ "") (fun name ↦ if name = "n" then some (.int 3) else none)
    (.list [.str "${n}", .str "a-${ n }-\x7b\x7bn\x7d\x7d", .str "${m}"]) =
    .list [.int 3, .str "a-3-3", .str "${m}"] := by rfl

end BnkForge.Templates
