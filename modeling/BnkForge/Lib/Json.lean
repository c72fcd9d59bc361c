import BnkForge.Lib.Dict
import Mathlib.Data.List.TakeWhile

/-!
# JSON texts

JSON as the `json` module of Python writes and reads it. A number is kept as its numeral. The text of
a string may be written by any function, and what is read then depends on that text alone
(`Json.readValue_write`).
-/

namespace Json

open List

/-! ### Numerals -/

def isNumberChar (c : Char) : Bool :=
  c.isDigit || c == '-' || c == '+' || c == '.' || c == 'e' || c == 'E'

def isDigits (cs : List Char) : Bool := !cs.isEmpty && cs.all Char.isDigit

def isExponent : List Char → Bool
  | [] => true
  | c :: cs =>
    (c == 'e' || c == 'E') &&
      match cs with
      | '-' :: digits => isDigits digits
      | '+' :: digits => isDigits digits
      | digits => isDigits digits

def isFraction : List Char → Bool
  | '.' :: cs => isDigits (cs.takeWhile Char.isDigit) && isExponent (cs.dropWhile Char.isDigit)
  | cs => isExponent cs

/-- A number without a sign; it has no zeros in front. -/
def isUnsigned : List Char → Bool
  | '0' :: cs => isFraction cs
  | cs => isDigits (cs.takeWhile Char.isDigit) && isFraction (cs.dropWhile Char.isDigit)

def isDecimal (cs : List Char) : Bool :=
  cs.all isNumberChar &&
    match cs with
    | '-' :: digits => isUnsigned digits
    | digits => isUnsigned digits

/-- What is written for the floats that are not numbers. -/
inductive Special
  | nan
  | infinity
  | minusInfinity
  deriving DecidableEq, Repr

def Special.text : Special → List Char
  | nan => "NaN".toList
  | infinity => "Infinity".toList
  | minusInfinity => "-Infinity".toList

structure Numeral where
  text : List Char
  valid : isDecimal text = true
  deriving DecidableEq

inductive Document
  | null
  | bool (b : Bool)
  | number (n : Numeral)
  | special (x : Special)
  | str (s : String)
  | list (items : List Document)
  | dict (items : List (String × Document))

/-! ### Writing -/

def hex4 (n : Nat) : List Char :=
  [Nat.digitChar (n / 4096 % 16), Nat.digitChar (n / 256 % 16), Nat.digitChar (n / 16 % 16),
    Nat.digitChar (n % 16)]

/-- A character by its code. -/
def unicodeEscape (n : Nat) : List Char := '\\' :: 'u' :: hex4 n

/-- The characters that are escaped by a letter, with the letters. -/
def shortEscapes : List (Char × Char) :=
  [('"', '"'), ('\\', '\\'), ('\n', 'n'), ('\r', 'r'), ('\t', 't'), ('\x08', 'b'), ('\x0c', 'f')]

/-- A character in a string. Outside of the printable ASCII characters it is written by its code, or
by two codes if it has more than 16 bits. -/
def escapeChar (c : Char) : List Char :=
  match shortEscapes.lookup c with
  | some letter => ['\\', letter]
  | none =>
    if 0x20 ≤ c.toNat ∧ c.toNat ≤ 0x7e then [c]
    else if c.toNat < 0x10000 then unicodeEscape c.toNat
    else unicodeEscape (0xd800 + (c.toNat - 0x10000) / 1024) ++
      unicodeEscape (0xdc00 + (c.toNat - 0x10000) % 1024)

def escape (s : String) : List Char := s.toList.flatMap escapeChar

section Write

variable {α : Type} (lift : Char → α) (body : String → List α)

mutual

/-- A document as a text of lifted characters, in which `body` writes the strings that are values. -/
def write : Document → List α
  | .null => "null".toList.map lift
  | .bool true => "true".toList.map lift
  | .bool false => "false".toList.map lift
  | .number n => n.text.map lift
  | .special x => x.text.map lift
  | .str s => lift '"' :: (body s ++ [lift '"'])
  | .list items => lift '[' :: writeElements [] items
  | .dict items => lift '\x7b' :: writeMembers [] items

def writeElements (separator : List Char) : List Document → List α
  | [] => [lift ']']
  | item :: items =>
    separator.map lift ++ (write item ++ writeElements [',', ' '] items)

/-- The items of a dict, the first one behind a separator, and the end of the dict. -/
def writeMembers (separator : List Char) : List (String × Document) → List α
  | [] => [lift '\x7d']
  | (key, item) :: items =>
    separator.map lift ++ (lift '"' :: ((escape key).map lift ++ (lift '"' :: lift ':' :: lift ' ' ::
      (write item ++ writeMembers [',', ' '] items))))

end

end Write

/-- `json.dumps`. -/
def dumps (document : Document) : List Char := write id escape document

/-! ### Reading -/

def hexValue (c : Char) : Option Nat :=
  if '0' ≤ c ∧ c ≤ '9' then some (c.toNat - 48)
  else if 'a' ≤ c ∧ c ≤ 'f' then some (c.toNat - 87)
  else if 'A' ≤ c ∧ c ≤ 'F' then some (c.toNat - 55)
  else none

/-- The number that four hexadecimal digits are. -/
def readHex4 : List Char → Option (Nat × List Char)
  | a :: b :: c :: d :: rest => do
    let a ← hexValue a
    let b ← hexValue b
    let c ← hexValue c
    let d ← hexValue d
    some (a * 4096 + b * 256 + c * 16 + d, rest)
  | _ => none

/-- The character of a code behind `\u`, or of two. A half of a pair without the other one is no
character and is refused. -/
def readUnicode (cs : List Char) : Option (Char × List Char) :=
  match readHex4 cs with
  | none => none
  | some (high, rest) =>
    if 0xd800 ≤ high ∧ high ≤ 0xdbff then
      match rest with
      | '\\' :: 'u' :: rest =>
        match readHex4 rest with
        | none => none
        | some (low, rest) =>
          if 0xdc00 ≤ low ∧ low ≤ 0xdfff then
            some (Char.ofNat (0x10000 + (high - 0xd800) * 1024 + (low - 0xdc00)), rest)
          else none
      | _ => none
    else if 0xdc00 ≤ high ∧ high ≤ 0xdfff then none
    else some (Char.ofNat high, rest)

/-- The character that a letter behind a backslash stands for. -/
def unescape (letter : Char) : Option Char :=
  if letter = '/' then some '/'
  else (shortEscapes.find? fun e ↦ e.2 == letter).map Prod.fst

/-- What is first in the text of a string: its end, or a character. -/
def readChar : List Char → Option (Option Char × List Char)
  | [] => none
  | '"' :: rest => some (none, rest)
  | '\\' :: 'u' :: rest => (readUnicode rest).map fun r ↦ (some r.1, r.2)
  | '\\' :: letter :: rest => (unescape letter).map fun c ↦ (some c, rest)
  | c :: rest => if c = '\\' ∨ c.toNat < 0x20 then none else some (some c, rest)

def readString : Nat → List Char → Option (List Char × List Char)
  | 0, _ => none
  | fuel + 1, cs =>
    match readChar cs with
    | none => none
    | some (none, rest) => some ([], rest)
    | some (some c, rest) => (readString fuel rest).map fun r ↦ (c :: r.1, r.2)

/-- White space. -/
def isBlank (c : Char) : Bool := c == ' ' || c == '\t' || c == '\n' || c == '\r'

def readConstant : List Char → Option (Document × List Char)
  | 'n' :: 'u' :: 'l' :: 'l' :: rest => some (.null, rest)
  | 't' :: 'r' :: 'u' :: 'e' :: rest => some (.bool true, rest)
  | 'f' :: 'a' :: 'l' :: 's' :: 'e' :: rest => some (.bool false, rest)
  | 'N' :: 'a' :: 'N' :: rest => some (.special .nan, rest)
  | 'I' :: 'n' :: 'f' :: 'i' :: 'n' :: 'i' :: 't' :: 'y' :: rest => some (.special .infinity, rest)
  | '-' :: 'I' :: 'n' :: 'f' :: 'i' :: 'n' :: 'i' :: 't' :: 'y' :: rest =>
    some (.special .minusInfinity, rest)
  | _ => none

/-- A decimal number. The text behind one that ends early is refused wherever a value may end. -/
def readNumber (cs : List Char) : Option (Document × List Char) :=
  if h : isDecimal (cs.takeWhile isNumberChar) = true then
    some (.number ⟨_, h⟩, cs.dropWhile isNumberChar)
  else none

/-- The items of a dict that is made from pairs: for a key that is there the last value counts. -/
def itemsOf (pairs : List (String × Document)) : List (String × Document) :=
  (Dict.empty.setAll pairs).items

mutual

def readValue : Nat → List Char → Option (Document × List Char)
  | 0, _ => none
  | fuel + 1, cs =>
    match cs with
    | '"' :: rest => (readString rest.length rest).map fun r ↦ (.str (String.ofList r.1), r.2)
    | '[' :: rest =>
      match rest.dropWhile isBlank with
      | ']' :: rest => some (.list [], rest)
      | rest => (readElements fuel rest).map fun r ↦ (.list r.1, r.2)
    | '\x7b' :: rest =>
      match rest.dropWhile isBlank with
      | '\x7d' :: rest => some (.dict [], rest)
      | rest => (readMembers fuel rest).map fun r ↦ (.dict (itemsOf r.1), r.2)
    | cs => (readConstant cs).or (readNumber cs)

def readElements : Nat → List Char → Option (List Document × List Char)
  | 0, _ => none
  | fuel + 1, cs =>
    match readValue fuel cs with
    | none => none
    | some (item, rest) =>
      match rest.dropWhile isBlank with
      | ']' :: rest => some ([item], rest)
      | ',' :: rest => (readElements fuel (rest.dropWhile isBlank)).map fun r ↦ (item :: r.1, r.2)
      | _ => none

/-- The pairs of a dict up to its end. -/
def readMembers : Nat → List Char → Option (List (String × Document) × List Char)
  | 0, _ => none
  | fuel + 1, cs =>
    match cs with
    | '"' :: rest =>
      match readString rest.length rest with
      | none => none
      | some (key, rest) =>
        match rest.dropWhile isBlank with
        | ':' :: rest =>
          match readValue fuel (rest.dropWhile isBlank) with
          | none => none
          | some (item, rest) =>
            match rest.dropWhile isBlank with
            | '\x7d' :: rest => some ([(String.ofList key, item)], rest)
            | ',' :: rest => (readMembers fuel (rest.dropWhile isBlank)).map
                fun r ↦ ((String.ofList key, item) :: r.1, r.2)
            | _ => none
        | _ => none
    | _ => none

end

/-- `json.loads`, `none` where it raises. -/
def loads (text : List Char) : Option Document :=
  match readValue text.length (text.dropWhile isBlank) with
  | none => none
  | some (document, rest) => if (rest.dropWhile isBlank).isEmpty then some document else none

/-! ### Characters of strings -/

section

variable {c : Char} {rest : List Char} {n : Nat}

theorem hexValue_digitChar (h : n < 16) : hexValue (Nat.digitChar n) = some n := by
  have hall : ∀ n < 16, hexValue (Nat.digitChar n) = some n := by decide
  exact hall n h

theorem readHex4_hex4 (h : n < 0x10000) (rest : List Char) :
    readHex4 (hex4 n ++ rest) = some (n, rest) := by
  simp only [hex4, cons_append, nil_append, readHex4, hexValue_digitChar (Nat.mod_lt _ (by decide : 0 < 16)),
    Option.bind_eq_bind, Option.bind_some]
  congr 2
  omega

theorem toNat_lt_or (c : Char) : c.toNat < 0xd800 ∨ 0xdfff < c.toNat ∧ c.toNat < 0x110000 := c.valid

/-- A character of up to 16 bits is read from its code. -/
theorem readUnicode_one (h : c.toNat < 0x10000) (rest : List Char) :
    readUnicode (hex4 c.toNat ++ rest) = some (c, rest) := by
  have hvalid := toNat_lt_or c
  rw [readUnicode, readHex4_hex4 h]
  dsimp only
  rw [if_neg (by omega), if_neg (by omega), Char.ofNat_toNat]

/-- A character of more than 16 bits is read from its two codes. -/
theorem readUnicode_two {high low : Nat} (hhigh : 0xd800 ≤ high ∧ high ≤ 0xdbff)
    (hlow : 0xdc00 ≤ low ∧ low ≤ 0xdfff) (rest : List Char) :
    readUnicode (hex4 high ++ (unicodeEscape low ++ rest)) =
      some (Char.ofNat (0x10000 + (high - 0xd800) * 1024 + (low - 0xdc00)), rest) := by
  have hread : readHex4 (hex4 low ++ rest) = some (low, rest) := readHex4_hex4 (by omega) rest
  rw [readUnicode, readHex4_hex4 (by omega)]
  simp only [unicodeEscape, cons_append, if_pos hhigh, hread, if_pos hlow]

theorem pair_code {n : Nat} (h : 0x10000 ≤ n) :
    0x10000 + (0xd800 + (n - 0x10000) / 1024 - 0xd800) * 1024 +
      (0xdc00 + (n - 0x10000) % 1024 - 0xdc00) = n := by
  rw [Nat.add_sub_cancel_left, Nat.add_sub_cancel_left]
  omega

/-- A character that may stand in a string as it is. -/
def isPlain (c : Char) : Bool := c != '"' && c != '\\' && 0x20 ≤ c.toNat

theorem readChar_plain (h : isPlain c = true) (rest : List Char) :
    readChar (c :: rest) = some (some c, rest) := by
  simp only [isPlain, Bool.and_eq_true, bne_iff_ne, decide_eq_true_eq] at h
  obtain ⟨⟨hquote, hbackslash⟩, hcontrol⟩ := h
  rw [readChar]
  · rw [if_neg (by simp only [hbackslash, false_or]; omega)]
  · exact hquote
  · exact fun _ heq ↦ absurd heq hbackslash
  · exact fun _ _ heq ↦ absurd heq hbackslash

theorem readChar_unicodeEscape (n : Nat) (rest : List Char) : readChar (unicodeEscape n ++ rest) =
    (readUnicode (hex4 n ++ rest)).map fun r ↦ (some r.1, r.2) := rfl

/-- The short escapes stand for their characters. -/
theorem readChar_shortEscape {letter : Char} (h : shortEscapes.lookup c = some letter)
    (rest : List Char) : readChar ('\\' :: letter :: rest) = some (some c, rest) := by
  have hmem : (c, letter) ∈ shortEscapes := Assoc.mem_of_lookup h
  have hall : ∀ e ∈ shortEscapes, e.2 ≠ 'u' ∧ unescape e.2 = some e.1 := by decide
  obtain ⟨hne, hunescape⟩ := hall _ hmem
  rw [readChar]
  · rw [hunescape]
    rfl
  · exact hne

/-- What is written for a character is read as the character. -/
theorem readChar_escapeChar (c : Char) (rest : List Char) :
    readChar (escapeChar c ++ rest) = some (some c, rest) := by
  rw [escapeChar]
  cases hlookup : shortEscapes.lookup c with
  | some letter => exact readChar_shortEscape hlookup rest
  | none =>
    dsimp only
    split
    · next hprintable =>
      refine readChar_plain ?_ rest
      simp only [isPlain, Bool.and_eq_true, bne_iff_ne, decide_eq_true_eq]
      refine ⟨⟨?_, ?_⟩, hprintable.1⟩
      · rintro rfl
        cases hlookup
      · rintro rfl
        cases hlookup
    · split
      · next hsmall =>
        rw [readChar_unicodeEscape, readUnicode_one hsmall]
        rfl
      · next hlarge =>
        have hvalid := toNat_lt_or c
        rw [append_assoc, readChar_unicodeEscape, readUnicode_two (by omega) (by omega),
          pair_code (by omega), Char.ofNat_toNat]
        rfl

end

/-! ### Texts of strings -/

def Reads (text : List Char) (result : Option (List Char)) : Prop :=
  ∀ fuel rest, text.length < fuel →
    readString fuel (text ++ '"' :: rest) = result.map fun cs ↦ (cs, rest)

section

variable {c : Char} {text part : List Char} {result : Option (List Char)}

theorem Reads.nil : Reads [] (some []) := by
  intro fuel rest hfuel
  obtain ⟨fuel, rfl⟩ := Nat.exists_eq_add_of_lt hfuel
  rfl

/-- A text that begins with the text of a character. -/
theorem Reads.cons (hpart : part ≠ []) (hchar : ∀ rest, readChar (part ++ rest) = some (some c, rest))
    (h : Reads text result) : Reads (part ++ text) (result.map (c :: ·)) := by
  intro fuel rest hfuel
  have hlength := length_pos_iff.mpr hpart
  rw [length_append] at hfuel
  obtain ⟨fuel, rfl⟩ : ∃ k, fuel = k + 1 := ⟨fuel - 1, by omega⟩
  rw [append_assoc, readString, hchar]
  dsimp only
  rw [h fuel rest (by omega), Option.map_map, Option.map_map]
  rfl

theorem escapeChar_ne_nil (c : Char) : escapeChar c ≠ [] := by
  rw [escapeChar]
  split
  · exact cons_ne_nil _ _
  · split
    · exact cons_ne_nil _ _
    · split <;> exact cons_ne_nil _ _

/-- The text of a character is read in front of any other text. -/
theorem Reads.escapeChar_append (c : Char) (h : Reads text result) :
    Reads (escapeChar c ++ text) (result.map (c :: ·)) :=
  .cons (escapeChar_ne_nil c) (readChar_escapeChar c) h

/-- A text that needs no escapes is read as it is. -/
theorem Reads.plain_append (hplain : ∀ c ∈ part, isPlain c = true) (h : Reads text result) :
    Reads (part ++ text) (result.map (part ++ ·)) := by
  induction part with
  | nil =>
    rw [nil_append]
    exact (Option.map_id' (x := result)).symm ▸ h
  | cons c part ih =>
    obtain ⟨hc, hpart⟩ := forall_mem_cons.mp hplain
    have hcons := (ih hpart).cons (cons_ne_nil c []) (readChar_plain hc)
    rwa [Option.map_map] at hcons

theorem reads_escape (cs : List Char) : Reads (cs.flatMap escapeChar) (some cs) := by
  induction cs with
  | nil => exact .nil
  | cons c cs ih => exact ih.escapeChar_append c

end

/-! ### Documents -/

mutual

/-- The strings that are values. -/
def Document.texts : Document → List String
  | .str s => [s]
  | .list items => textsOfList items
  | .dict items => textsOfItems items
  | _ => []

def textsOfList : List Document → List String
  | [] => []
  | item :: items => item.texts ++ textsOfList items

def textsOfItems : List (String × Document) → List String
  | [] => []
  | (_, item) :: items => item.texts ++ textsOfItems items

end

mutual

/-- The document with a function applied to the strings that are values. -/
def Document.mapTexts (f : String → String) : Document → Document
  | .str s => .str (f s)
  | .list items => .list (mapTextsOfList f items)
  | .dict items => .dict (mapTextsOfItems f items)
  | document => document

def mapTextsOfList (f : String → String) : List Document → List Document
  | [] => []
  | item :: items => item.mapTexts f :: mapTextsOfList f items

def mapTextsOfItems (f : String → String) : List (String × Document) → List (String × Document)
  | [] => []
  | (key, item) :: items => (key, item.mapTexts f) :: mapTextsOfItems f items

end

mutual

def Document.Distinct : Document → Prop
  | .list items => DistinctList items
  | .dict items => (items.map Prod.fst).Nodup ∧ DistinctItems items
  | _ => True

def DistinctList : List Document → Prop
  | [] => True
  | item :: items => item.Distinct ∧ DistinctList items

def DistinctItems : List (String × Document) → Prop
  | [] => True
  | (_, item) :: items => item.Distinct ∧ DistinctItems items

end

mutual

/-- The document with a function that may fail applied to the strings that are values. -/
def Document.traverseTexts (g : String → Option String) : Document → Option Document
  | .str s => (g s).map .str
  | .list items => (traverseList g items).map .list
  | .dict items => (traverseItems g items).map .dict
  | document => some document

def traverseList (g : String → Option String) : List Document → Option (List Document)
  | [] => some []
  | item :: items =>
    match item.traverseTexts g with
    | none => none
    | some item => (traverseList g items).map (item :: ·)

def traverseItems (g : String → Option String) :
    List (String × Document) → Option (List (String × Document))
  | [] => some []
  | (key, item) :: items =>
    match item.traverseTexts g with
    | none => none
    | some item => (traverseItems g items).map ((key, item) :: ·)

end

mutual

/-- The strings become what `f` makes of them if and only if `g` makes the same of each of them. -/
theorem traverseTexts_eq_iff {g : String → Option String} {f : String → String}
    (document : Document) : document.traverseTexts g = some (document.mapTexts f) ↔
      ∀ s ∈ document.texts, g s = some (f s) := by
  cases document with
  | null | bool | number | special => simp [Document.traverseTexts, Document.mapTexts, Document.texts]
  | str s => simp [Document.traverseTexts, Document.mapTexts, Document.texts, Option.map_eq_some_iff]
  | list items => simpa [Document.traverseTexts, Document.mapTexts, Document.texts] using traverseList_eq_iff items
  | dict items => simpa [Document.traverseTexts, Document.mapTexts, Document.texts] using traverseItems_eq_iff items

theorem traverseList_eq_iff {g : String → Option String} {f : String → String}
    (items : List Document) : traverseList g items = some (mapTextsOfList f items) ↔
      ∀ s ∈ textsOfList items, g s = some (f s) := by
  cases items with
  | nil => simp [traverseList, mapTextsOfList, textsOfList]
  | cons item items =>
    rw [textsOfList, forall_mem_append, ← traverseTexts_eq_iff item, ← traverseList_eq_iff items,
      traverseList, mapTextsOfList]
    cases item.traverseTexts g <;> simp [and_comm]

theorem traverseItems_eq_iff {g : String → Option String} {f : String → String}
    (items : List (String × Document)) : traverseItems g items = some (mapTextsOfItems f items) ↔
      ∀ s ∈ textsOfItems items, g s = some (f s) := by
  cases items with
  | nil => simp [traverseItems, mapTextsOfItems, textsOfItems]
  | cons item items =>
    obtain ⟨key, item⟩ := item
    rw [textsOfItems, forall_mem_append, ← traverseTexts_eq_iff item,
      ← traverseItems_eq_iff items, traverseItems, mapTextsOfItems]
    cases item.traverseTexts g <;> simp [and_comm]

end

/-! ### Writing in parts -/

section

variable {α β : Type} {lift : Char → α} {body : String → List α} {f : α → List β} {lift' : Char → β}

mutual

/-- A function that keeps the lifted characters changes the strings that are values. -/
theorem write_flatMap (hlift : ∀ c, f (lift c) = [lift' c]) (document : Document) :
    (write lift body document).flatMap f = write lift' (fun s ↦ (body s).flatMap f) document := by
  have hmap : ∀ cs : List Char, (cs.map lift).flatMap f = cs.map lift' := by
    intro cs
    rw [flatMap_map, map_eq_flatMap]
    exact congrArg cs.flatMap (funext hlift)
  cases document with
  | null => exact hmap _
  | bool b => cases b <;> exact hmap _
  | number n => exact hmap _
  | special x => exact hmap _
  | str s => simp [write, hlift]
  | list items => simp [write, hlift, writeElements_flatMap hlift items]
  | dict items => simp [write, hlift, writeMembers_flatMap hlift items]

theorem writeElements_flatMap (hlift : ∀ c, f (lift c) = [lift' c]) (items : List Document)
    (separator : List Char) : (writeElements lift body separator items).flatMap f =
      writeElements lift' (fun s ↦ (body s).flatMap f) separator items := by
  cases items with
  | nil => simp [writeElements, hlift]
  | cons item items =>
    simp [writeElements, flatMap_map, hlift, ← map_eq_flatMap, write_flatMap hlift item,
      writeElements_flatMap hlift items]

theorem writeMembers_flatMap (hlift : ∀ c, f (lift c) = [lift' c]) (items : List (String × Document))
    (separator : List Char) : (writeMembers lift body separator items).flatMap f =
      writeMembers lift' (fun s ↦ (body s).flatMap f) separator items := by
  cases items with
  | nil => simp [writeMembers, hlift]
  | cons item items =>
    simp [writeMembers, flatMap_map, hlift, ← map_eq_flatMap, write_flatMap hlift item.2,
      writeMembers_flatMap hlift items]

end

mutual

theorem write_mapTexts (f : String → String) (document : Document) :
    write lift body (document.mapTexts f) = write lift (fun s ↦ body (f s)) document := by
  cases document with
  | null | number n | special x | str s => rfl
  | bool b => cases b <;> rfl
  | list items => simp only [Document.mapTexts, write, writeElements_mapTexts f items]
  | dict items => simp only [Document.mapTexts, write, writeMembers_mapTexts f items]

theorem writeElements_mapTexts (f : String → String) (items : List Document) (separator : List Char) :
    writeElements lift body separator (mapTextsOfList f items) =
      writeElements lift (fun s ↦ body (f s)) separator items := by
  cases items with
  | nil => rfl
  | cons item items =>
    simp only [mapTextsOfList, writeElements, write_mapTexts f item, writeElements_mapTexts f items]

theorem writeMembers_mapTexts (f : String → String) (items : List (String × Document))
    (separator : List Char) : writeMembers lift body separator (mapTextsOfItems f items) =
      writeMembers lift (fun s ↦ body (f s)) separator items := by
  cases items with
  | nil => rfl
  | cons item items =>
    simp only [mapTextsOfItems, writeMembers, write_mapTexts f item.2, writeMembers_mapTexts f items]

end

end

/-! ### Reading what is written -/

section

variable {c : Char} {cs rest : List Char}

/-- No number goes on in the text. -/
def Ends (rest : List Char) : Prop := ∀ c ∈ rest.head?, isNumberChar c = false

theorem isNumberChar_of_isDecimal (h : isDecimal cs = true) : ∀ c ∈ cs, isNumberChar c = true := by
  unfold isDecimal at h
  rw [Bool.and_eq_true, all_eq_true] at h
  exact h.1

/-- A numeral is more than a sign. -/
theorem exists_cons_of_isDecimal (h : isDecimal cs = true) :
    ∃ c tail, cs = c :: tail ∧ (c = '-' → tail ≠ []) := by
  cases cs with
  | nil => exact absurd h (by decide)
  | cons c tail =>
    refine ⟨c, tail, rfl, ?_⟩
    rintro rfl rfl
    exact absurd h (by decide)

theorem readConstant_of_isDecimal (h : isDecimal cs = true) (rest : List Char) :
    readConstant (cs ++ rest) = none := by
  obtain ⟨c, tail, rfl, hsign⟩ := exists_cons_of_isDecimal h
  have hchars := isNumberChar_of_isDecimal h
  have hc := hchars c mem_cons_self
  have hne : ∀ d cs, isNumberChar d = false → c :: (tail ++ rest) ≠ d :: cs := by
    rintro d cs hd heq
    rw [(List.cons.inj heq).1, hd] at hc
    cases hc
  rw [cons_append]
  unfold readConstant
  split
  · next heq => exact absurd heq (hne _ _ (by decide))
  · next heq => exact absurd heq (hne _ _ (by decide))
  · next heq => exact absurd heq (hne _ _ (by decide))
  · next heq => exact absurd heq (hne _ _ (by decide))
  · next heq => exact absurd heq (hne _ _ (by decide))
  · next heq =>
    obtain ⟨rfl, htail⟩ := List.cons.inj heq
    obtain ⟨d, tail, rfl⟩ := exists_cons_of_ne_nil (hsign rfl)
    obtain ⟨rfl, -⟩ := List.cons.inj htail
    have hd := hchars 'I' (mem_cons_of_mem _ mem_cons_self)
    exact absurd hd (by decide)
  · rfl

theorem readNumber_append (n : Numeral) (h : Ends rest) :
    readNumber (n.text ++ rest) = some (.number n, rest) := by
  have hchars := isNumberChar_of_isDecimal n.valid
  have hrest : rest.takeWhile isNumberChar = [] ∧ rest.dropWhile isNumberChar = rest := by
    cases rest with
    | nil => exact ⟨rfl, rfl⟩
    | cons c rest =>
      have hc := h c rfl
      exact ⟨takeWhile_cons_of_neg (by simp [hc]), dropWhile_cons_of_neg (by simp [hc])⟩
  have htake : (n.text ++ rest).takeWhile isNumberChar = n.text := by
    rw [takeWhile_append_of_pos hchars, hrest.1, append_nil]
  have hdrop : (n.text ++ rest).dropWhile isNumberChar = rest := by
    rw [dropWhile_append_of_pos hchars, hrest.2]
  unfold readNumber
  simp only [htake, hdrop, n.valid, dif_pos]

/-- A value does not begin with white space, nor with the end of a list. -/
theorem write_head (body : String → List Char) (document : Document) :
    ∃ c cs, write id body document = c :: cs ∧ isBlank c = false ∧ c ≠ ']' := by
  cases document with
  | null => exact ⟨_, _, rfl, by decide, by decide⟩
  | bool b => cases b <;> exact ⟨_, _, rfl, by decide, by decide⟩
  | number n =>
    obtain ⟨c, tail, htext, -⟩ := exists_cons_of_isDecimal n.valid
    have hc := isNumberChar_of_isDecimal n.valid c (htext ▸ mem_cons_self)
    refine ⟨c, tail, by rw [write, map_id, htext], ?_, ?_⟩
    · by_contra hblank
      rw [Bool.not_eq_false] at hblank
      simp only [isBlank, Bool.or_eq_true, beq_iff_eq] at hblank
      rcases hblank with ((rfl | rfl) | rfl) | rfl <;> revert hc <;> decide
    · rintro rfl
      exact absurd hc (by decide)
  | special x => cases x <;> exact ⟨_, _, rfl, by decide, by decide⟩
  | str s => exact ⟨_, _, rfl, by decide, by decide⟩
  | list items => exact ⟨_, _, rfl, by decide, by decide⟩
  | dict items => exact ⟨_, _, rfl, by decide, by decide⟩

/-- No white space is passed over in front of a value. -/
theorem dropWhile_write (body : String → List Char) (document : Document) (rest : List Char) :
    (write id body document ++ rest).dropWhile isBlank = write id body document ++ rest := by
  obtain ⟨c, cs, hwrite, hblank, -⟩ := write_head body document
  rw [hwrite, cons_append, dropWhile_cons_of_neg (by simp [hblank])]

/-- A number is read by its first character. -/
theorem readValue_number (n : Numeral) (fuel : Nat) (h : Ends rest) :
    readValue (fuel + 1) (n.text ++ rest) = some (.number n, rest) := by
  have hread := readNumber_append n h
  have hconstant := readConstant_of_isDecimal n.valid rest
  obtain ⟨c, tail, htext, -⟩ := exists_cons_of_isDecimal n.valid
  have hc := isNumberChar_of_isDecimal n.valid c (htext ▸ mem_cons_self)
  rw [readValue]
  · rw [hconstant, hread]
    rfl
  all_goals
    rintro _ heq
    rw [htext, cons_append] at heq
    rw [(List.cons.inj heq).1] at hc
    exact absurd hc (by decide)

section Write

variable {body : String → List Char} {g : String → Option String}

/-- After the first element a separator is written. -/
theorem writeElements_cons (body : String → List Char) (item : Document) (items : List Document) :
    writeElements id body [',', ' '] (item :: items) =
      ',' :: ' ' :: writeElements id body [] (item :: items) := rfl

theorem writeMembers_cons (body : String → List Char) (item : String × Document)
    (items : List (String × Document)) : writeMembers id body [',', ' '] (item :: items) =
      ',' :: ' ' :: writeMembers id body [] (item :: items) := rfl

/-- What is behind an element ends a number. -/
theorem ends_writeElements (body : String → List Char) (items : List Document) (rest : List Char) :
    Ends (writeElements id body [',', ' '] items ++ rest) := by
  cases items <;> rintro c ⟨⟩ <;> rfl

theorem ends_writeMembers (body : String → List Char) (items : List (String × Document))
    (rest : List Char) : Ends (writeMembers id body [',', ' '] items ++ rest) := by
  cases items <;> rintro c ⟨⟩ <;> rfl

theorem readString_text {text : List Char} {result : Option (List Char)} (h : Reads text result)
    (rest : List Char) :
    readString (text ++ '"' :: rest).length (text ++ '"' :: rest) = result.map fun cs ↦ (cs, rest) := by
  refine h _ rest ?_
  rw [length_append, length_cons]
  omega

theorem readString_key (key : String) (rest : List Char) :
    readString (escape key ++ '"' :: rest).length (escape key ++ '"' :: rest) =
      some (key.toList, rest) :=
  readString_text (reads_escape key.toList) rest

theorem length_writeElements_pos (body : String → List Char) (separator : List Char)
    (items : List Document) : 0 < (writeElements id body separator items).length := by
  cases items with
  | nil => exact Nat.zero_lt_one
  | cons item items =>
    obtain ⟨c, cs, hwrite, -⟩ := write_head body item
    rw [writeElements, hwrite, length_append, length_append, length_cons]
    omega

theorem length_writeMembers_pos (body : String → List Char) (separator : List Char)
    (items : List (String × Document)) : 0 < (writeMembers id body separator items).length := by
  cases items with
  | nil => exact Nat.zero_lt_one
  | cons item items =>
    rw [writeMembers, length_append, length_cons]
    omega

/-- The keys stay. -/
theorem keys_of_traverseItems {items items' : List (String × Document)}
    (h : traverseItems g items = some items') : items'.map Prod.fst = items.map Prod.fst := by
  induction items generalizing items' with
  | nil =>
    cases h
    rfl
  | cons item items ih =>
    rw [traverseItems] at h
    cases hitem : item.2.traverseTexts g with
    | none =>
      rw [hitem] at h
      cases h
    | some item' =>
      rw [hitem] at h
      obtain ⟨rest, hrest, rfl⟩ := Option.map_eq_some_iff.mp h
      rw [map_cons, map_cons, ih hrest]

theorem itemsOf_of_nodup {items : List (String × Document)} (h : (items.map Prod.fst).Nodup) :
    itemsOf items = items :=
  Dict.items_setAll h

mutual

/-- What is written with texts of strings that are read as `g` says is read as the document with `g`
applied to them. -/
theorem readValue_write (document : Document) (fuel : Nat) (rest : List Char)
    (hbody : ∀ s ∈ document.texts, Reads (body s) ((g s).map String.toList))
    (hdistinct : document.Distinct) (hrest : Ends rest)
    (hfuel : (write id body document).length ≤ fuel) :
    readValue fuel (write id body document ++ rest) =
      (document.traverseTexts g).map fun d ↦ (d, rest) := by
  obtain ⟨fuel, rfl⟩ : ∃ k, fuel = k + 1 := by
    obtain ⟨c, cs, hwrite, -⟩ := write_head body document
    rw [hwrite, length_cons] at hfuel
    exact ⟨fuel - 1, by omega⟩
  cases document with
  | null => rfl
  | bool b => cases b <;> rfl
  | special x => cases x <;> rfl
  | number n =>
    rw [write, map_id]
    exact readValue_number n fuel hrest
  | str s =>
    have hread := readString_text (hbody s (mem_singleton_self s)) rest
    rw [write, cons_append, append_assoc]
    change (readString (body s ++ '"' :: rest).length (body s ++ '"' :: rest)).map _ = _
    rw [hread, Document.traverseTexts]
    cases g s with
    | none => rfl
    | some s' =>
      simp only [Option.map_some, String.ofList_toList]
  | list items =>
    rw [write, length_cons] at hfuel
    cases items with
    | nil => rfl
    | cons item items =>
      have hread := readElements_write item items fuel rest hbody hdistinct (by omega)
      obtain ⟨c, cs, hwrite, hblank, hend⟩ := write_head body item
      rw [write, cons_append, Document.traverseTexts]
      rw [writeElements, map_nil, nil_append, hwrite] at hread ⊢
      rw [cons_append, cons_append] at hread ⊢
      rw [id_eq, readValue, dropWhile_cons_of_neg (by simp [hblank])]
      split
      · next heq => exact absurd (List.cons.inj heq).1 hend
      · rw [hread, Option.map_map, Option.map_map]
        rfl
  | dict items =>
    rw [write, length_cons] at hfuel
    cases items with
    | nil => rfl
    | cons item items =>
      have hread := readMembers_write item items fuel rest hbody hdistinct.2 (by omega)
      rw [write, cons_append, Document.traverseTexts]
      change ((readMembers fuel (writeMembers id body [] (item :: items) ++ rest)).map
        fun r ↦ (Document.dict (itemsOf r.1), r.2)) = _
      rw [hread, Option.map_map, Option.map_map]
      refine Option.map_congr fun items' hitems ↦ ?_
      have hkeys := keys_of_traverseItems hitems
      rw [Function.comp_apply, Function.comp_apply, itemsOf_of_nodup (hkeys ▸ hdistinct.1)]
termination_by fuel

theorem readElements_write (item : Document) (items : List Document) (fuel : Nat) (rest : List Char)
    (hbody : ∀ s ∈ textsOfList (item :: items), Reads (body s) ((g s).map String.toList))
    (hdistinct : DistinctList (item :: items))
    (hfuel : (writeElements id body [] (item :: items)).length ≤ fuel) :
    readElements fuel (writeElements id body [] (item :: items) ++ rest) =
      (traverseList g (item :: items)).map fun ds ↦ (ds, rest) := by
  rw [textsOfList, forall_mem_append] at hbody
  rw [writeElements, map_nil, nil_append, length_append] at hfuel
  have hpos := length_writeElements_pos body [',', ' '] items
  obtain ⟨fuel, rfl⟩ : ∃ k, fuel = k + 1 := ⟨fuel - 1, by omega⟩
  have hitem := readValue_write item fuel (writeElements id body [',', ' '] items ++ rest) hbody.1
    hdistinct.1 (ends_writeElements body items rest) (by omega)
  rw [writeElements, map_nil, nil_append, append_assoc, readElements, hitem,
    traverseList]
  cases item.traverseTexts g with
  | none => rfl
  | some item' =>
    cases items with
    | nil => rfl
    | cons next items =>
      rw [writeElements_cons, length_cons, length_cons] at hfuel
      have hnext := readElements_write next items fuel rest hbody.2 hdistinct.2 (by omega)
      have hdrop : (' ' :: (writeElements id body [] (next :: items) ++ rest)).dropWhile isBlank =
          writeElements id body [] (next :: items) ++ rest := by
        rw [writeElements, map_nil, nil_append, append_assoc,
          dropWhile_cons_of_pos (by decide), dropWhile_write]
      rw [writeElements_cons]
      change ((readElements fuel ((' ' :: (writeElements id body [] (next :: items) ++ rest)).dropWhile
        isBlank)).map fun r ↦ (item' :: r.1, r.2)) = _
      rw [hdrop, hnext]
      cases traverseList g (next :: items) <;> rfl
termination_by fuel

theorem readMembers_write (item : String × Document) (items : List (String × Document)) (fuel : Nat)
    (rest : List Char)
    (hbody : ∀ s ∈ textsOfItems (item :: items), Reads (body s) ((g s).map String.toList))
    (hdistinct : DistinctItems (item :: items))
    (hfuel : (writeMembers id body [] (item :: items)).length ≤ fuel) :
    readMembers fuel (writeMembers id body [] (item :: items) ++ rest) =
      (traverseItems g (item :: items)).map fun ds ↦ (ds, rest) := by
  obtain ⟨key, item⟩ := item
  rw [textsOfItems, forall_mem_append] at hbody
  rw [writeMembers] at hfuel ⊢
  simp only [map_nil, nil_append, length_append, length_cons, length_map]
    at hfuel
  have hpos := length_writeMembers_pos body [',', ' '] items
  obtain ⟨fuel, rfl⟩ : ∃ k, fuel = k + 1 := ⟨fuel - 1, by omega⟩
  have hitem := readValue_write item fuel (writeMembers id body [',', ' '] items ++ rest) hbody.1
    hdistinct.1 (ends_writeMembers body items rest) (by omega)
  have hkey := readString_key key
    (':' :: ' ' :: (write id body item ++ (writeMembers id body [',', ' '] items ++ rest)))
  simp only [map_nil, nil_append, map_id, id_eq, cons_append, append_assoc]
  rw [readMembers, hkey]
  dsimp only
  rw [dropWhile_cons_of_neg (by decide)]
  split
  case h_2 hne => exact absurd rfl (hne _)
  case h_1 heq =>
    obtain ⟨-, rfl⟩ := List.cons.inj heq
    rw [dropWhile_cons_of_pos (by decide), dropWhile_write, hitem, traverseItems,
      String.ofList_toList]
    cases item.traverseTexts g with
    | none => rfl
    | some item' =>
      cases items with
      | nil => rfl
      | cons next items =>
        rw [writeMembers_cons, length_cons, length_cons] at hfuel
        have hnext := readMembers_write next items fuel rest hbody.2 hdistinct.2 (by omega)
        rw [writeMembers_cons]
        change ((readMembers fuel (writeMembers id body [] (next :: items) ++ rest)).map
          fun r ↦ ((key, item') :: r.1, r.2)) = _
        rw [hnext]
        cases traverseItems g (next :: items) <;> rfl
termination_by fuel

end

/-- A text in which only the strings that are values are written in another way is read as the
document with what is read of them. -/
theorem loads_write {document : Document} (hdistinct : document.Distinct)
    (hbody : ∀ s ∈ document.texts, Reads (body s) ((g s).map String.toList)) :
    loads (write id body document) = document.traverseTexts g := by
  have hdrop := dropWhile_write body document []
  have hread := readValue_write document (write id body document).length [] hbody hdistinct
    (by rintro c ⟨⟩) le_rfl
  rw [append_nil] at hdrop hread
  rw [loads, hdrop, hread]
  cases document.traverseTexts g <;> rfl

end Write

end

end Json
