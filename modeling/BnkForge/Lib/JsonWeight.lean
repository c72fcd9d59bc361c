import BnkForge.Lib.Json
import Mathlib

/-!
# The lightest text of a JSON document

A character weighs what it takes to write it in a string, and white space weighs nothing. No text of a
document is lighter than the one that `json.dumps` writes (`Json.weight_dumps_le`).
-/

namespace Json

open List

/-- The weight of a character of a text. A quote and a backslash that are escaped weigh more. -/
def weigh (c : Char) : Nat :=
  if c.toNat ≤ 0x20 then 0 else if c = '"' ∨ c = '\\' then 1 else (escapeChar c).length

def weight (cs : List Char) : Nat := (cs.map weigh).sum

section

variable {c : Char} {cs text rest : List Char} {n : Nat}

@[simp] theorem weight_nil : weight [] = 0 := rfl

@[simp] theorem weight_cons (c : Char) (cs : List Char) : weight (c :: cs) = weigh c + weight cs := by
  rw [weight, map_cons, sum_cons, weight]

@[simp] theorem weight_append (cs ds : List Char) : weight (cs ++ ds) = weight cs + weight ds := by
  rw [weight, map_append, sum_append, weight, weight]

theorem weigh_digitChar (h : n < 16) : weigh (Nat.digitChar n) = 1 := by
  have hall : ∀ n < 16, weigh (Nat.digitChar n) = 1 := by decide
  exact hall n h

theorem weight_unicodeEscape (n : Nat) : weight (unicodeEscape n) = 6 := by
  have hbackslash : weigh '\\' = 1 := by decide
  have hu : weigh 'u' = 1 := by decide
  simp only [unicodeEscape, hex4, weight_cons, weight_nil, hbackslash, hu,
    weigh_digitChar (Nat.mod_lt _ (by decide : 0 < 16))]

/-- What is written for a character weighs its length. -/
theorem weight_escapeChar (h : c ≠ ' ') : weight (escapeChar c) = (escapeChar c).length := by
  have hspace : c.toNat ≠ 0x20 := fun heq ↦ h (Char.toNat_inj.mp heq)
  cases hlookup : shortEscapes.lookup c with
  | some letter =>
    have hall : ∀ e ∈ shortEscapes, weight ['\\', e.2] = 2 := by decide
    rw [escapeChar, hlookup]
    exact hall _ (Assoc.mem_of_lookup hlookup)
  | none =>
    have hquote : ¬ (c = '"' ∨ c = '\\') := by
      rintro (rfl | rfl) <;> exact absurd hlookup (by decide)
    by_cases hprintable : 0x20 ≤ c.toNat ∧ c.toNat ≤ 0x7e
    · have hescape : escapeChar c = [c] := by rw [escapeChar, hlookup, if_pos hprintable]
      rw [hescape, weight_cons, weight_nil, weigh, if_neg (by omega), if_neg hquote, hescape]
      rfl
    · rw [escapeChar, hlookup]
      dsimp only
      rw [if_neg hprintable]
      split
      · rw [weight_unicodeEscape]
        rfl
      · rw [weight_append, weight_unicodeEscape, weight_unicodeEscape]
        rfl

theorem length_escapeChar_le (c : Char) :
    (escapeChar c).length ≤ 12 ∧ (c.toNat < 0x10000 → (escapeChar c).length ≤ 6) := by
  rw [escapeChar]
  split
  · exact ⟨by simp, fun _ ↦ by simp⟩
  · split
    · exact ⟨by simp, fun _ ↦ by simp⟩
    · split
      · exact ⟨by simp [unicodeEscape, hex4], fun _ ↦ by simp [unicodeEscape, hex4]⟩
      · next hlarge => exact ⟨by simp [unicodeEscape, hex4], fun h ↦ absurd h hlarge⟩

theorem weight_escapeChar_le (c : Char) : weight (escapeChar c) ≤ (escapeChar c).length := by
  by_cases h : c = ' '
  · subst h
    decide
  · exact (weight_escapeChar h).le

/-- A character that may stand in a string as it is weighs what it takes to write it. -/
theorem weigh_of_isPlain (h : isPlain c = true) : weigh c = weight (escapeChar c) := by
  by_cases hspace : c = ' '
  · subst hspace
    decide
  · have hne : c.toNat ≠ 0x20 := fun heq ↦ hspace (Char.toNat_inj.mp heq)
    simp only [isPlain, Bool.and_eq_true, bne_iff_ne, decide_eq_true_eq] at h
    rw [weight_escapeChar hspace, weigh, if_neg (by omega), if_neg (not_or.mpr h.1)]

/-- A character that may not weighs less. -/
theorem weigh_lt_of_not_isPlain (h : ¬ isPlain c = true) : weigh c < weight (escapeChar c) := by
  by_cases hcontrol : c.toNat ≤ 0x20
  · have hspace : c ≠ ' ' := by
      rintro rfl
      exact h (by decide)
    rw [weigh, if_pos hcontrol, weight_escapeChar hspace]
    exact length_pos_iff.mpr (escapeChar_ne_nil c)
  · have hquote : c = '"' ∨ c = '\\' := by
      by_contra hne
      have hplain : isPlain c = true := by
        simp only [isPlain, Bool.and_eq_true, bne_iff_ne, decide_eq_true_eq]
        exact ⟨not_or.mp hne, by omega⟩
      exact h hplain
    rcases hquote with rfl | rfl <;> decide

theorem weigh_le (c : Char) : weigh c ≤ weight (escapeChar c) := by
  by_cases h : isPlain c = true
  · exact (weigh_of_isPlain h).le
  · exact (weigh_lt_of_not_isPlain h).le

theorem weight_le_flatMap (cs : List Char) : weight cs ≤ weight (cs.flatMap escapeChar) := by
  induction cs with
  | nil => exact le_rfl
  | cons c cs ih =>
    rw [flatMap_cons, weight_cons, weight_append]
    exact Nat.add_le_add (weigh_le c) ih

/-- A text that does not become heavier has only characters that may stand in a string. -/
theorem isPlain_of_weight_le (h : weight (cs.flatMap escapeChar) ≤ weight cs) :
    ∀ c ∈ cs, isPlain c = true := by
  induction cs with
  | nil => simp
  | cons c cs ih =>
    rw [flatMap_cons, weight_cons, weight_append] at h
    have hrest := weight_le_flatMap cs
    have hc := weigh_le c
    refine forall_mem_cons.mpr ⟨?_, ih (by omega)⟩
    by_contra hplain
    have hlt := weigh_lt_of_not_isPlain hplain
    omega

/-! ### Reading a string -/

theorem hexValue_eq_some (h : hexValue c = some n) : n < 16 ∧ weigh c = 1 := by
  have hdigit : ∀ k < 103, hexValue (Char.ofNat k) = none ∨
      (hexValue (Char.ofNat k)).getD 16 < 16 ∧ weigh (Char.ofNat k) = 1 := by decide
  have hlt : c.toNat < 103 := by
    by_contra hge
    have hle : ∀ d : Char, d.toNat < 103 → ¬ c ≤ d := by
      intro d hd hcd
      have hcd' : c.toNat ≤ d.toNat := hcd
      omega
    rw [hexValue, if_neg fun hc ↦ hle '9' (by decide) hc.2, if_neg fun hc ↦ hle 'f' (by decide) hc.2,
      if_neg fun hc ↦ hle 'F' (by decide) hc.2] at h
    cases h
  have hc := hdigit c.toNat hlt
  rw [Char.ofNat_toNat, h] at hc
  exact hc.resolve_left (by simp)

theorem readHex4_eq_some (h : readHex4 cs = some (n, rest)) :
    n < 0x10000 ∧ weight cs = 4 + weight rest := by
  unfold readHex4 at h
  split at h
  · next c₁ c₂ c₃ c₄ cs =>
    simp only [Option.bind_eq_bind, Option.bind_eq_some_iff, Option.some.injEq, Prod.mk.injEq] at h
    obtain ⟨n₁, h₁, n₂, h₂, n₃, h₃, n₄, h₄, rfl, rfl⟩ := h
    have hc₁ := hexValue_eq_some h₁
    have hc₂ := hexValue_eq_some h₂
    have hc₃ := hexValue_eq_some h₃
    have hc₄ := hexValue_eq_some h₄
    simp only [weight_cons, hc₁.2, hc₂.2, hc₃.2, hc₄.2]
    omega
  · cases h

/-- A code is not lighter than its character, and neither are two codes. -/
theorem readUnicode_eq_some (h : readUnicode cs = some (c, rest)) :
    weight (escapeChar c) + weight rest ≤ 2 + weight cs := by
  have hlength := length_escapeChar_le c
  have hweight := weight_escapeChar_le c
  unfold readUnicode at h
  cases hhigh : readHex4 cs with
  | none =>
    rw [hhigh] at h
    cases h
  | some hit =>
    obtain ⟨high, rest₁⟩ := hit
    obtain ⟨hlt, hcs⟩ := readHex4_eq_some hhigh
    rw [hhigh] at h
    dsimp only at h
    split at h
    · split at h
      · next rest₂ =>
        cases hlow : readHex4 rest₂ with
        | none =>
          rw [hlow] at h
          cases h
        | some hit =>
          obtain ⟨low, rest₃⟩ := hit
          have hrest := (readHex4_eq_some hlow).2
          have hbackslash : weigh '\\' = 1 := by decide
          have hu : weigh 'u' = 1 := by decide
          rw [hlow] at h
          dsimp only at h
          split at h
          · rw [← (Prod.mk.inj (Option.some.inj h)).2]
            rw [weight_cons, weight_cons, hbackslash, hu, hrest] at hcs
            omega
          · cases h
      · cases h
    · split at h
      · cases h
      · cases h
        have hcode : (Char.ofNat high).toNat < 0x10000 := by
          unfold Char.ofNat
          split
          · exact hlt
          · decide
        have hshort := hlength.2 hcode
        omega

theorem mem_of_unescape {letter : Char} (h : unescape letter = some c) :
    (c, letter) ∈ ('/', '/') :: shortEscapes := by
  unfold unescape at h
  split at h
  · next heq =>
    cases h
    rw [heq]
    exact mem_cons_self
  · obtain ⟨e, hfind, rfl⟩ := Option.map_eq_some_iff.mp h
    have hletter := find?_some hfind
    rw [← eq_of_beq hletter]
    exact mem_cons_of_mem _ (mem_of_find?_eq_some hfind)

/-- A character of a string is not lighter than what is written for it. -/
theorem readChar_eq_some (h : readChar cs = some (some c, rest)) :
    weight (escapeChar c) + weight rest ≤ weight cs := by
  have hbackslash : weigh '\\' = 1 := by decide
  have hu : weigh 'u' = 1 := by decide
  unfold readChar at h
  split at h
  · cases h
  · cases h
  · next cs =>
    obtain ⟨hit, hread, heq⟩ := Option.map_eq_some_iff.mp h
    cases heq
    have hle := readUnicode_eq_some hread
    rw [weight_cons, weight_cons, hbackslash, hu]
    omega
  · next letter cs _ =>
    obtain ⟨_, hunescape, heq⟩ := Option.map_eq_some_iff.mp h
    cases heq
    have hall : ∀ e ∈ ('/', '/') :: shortEscapes, weight (escapeChar e.1) ≤ 1 + weigh e.2 := by decide
    have hle : weight (escapeChar c) ≤ 1 + weigh letter := hall _ (mem_of_unescape hunescape)
    rw [weight_cons, weight_cons, hbackslash]
    omega
  · next hquote _ _ =>
    split at h
    · cases h
    · next hplain =>
      cases h
      have hisPlain : isPlain c = true := by
        simp only [isPlain, Bool.and_eq_true, bne_iff_ne, decide_eq_true_eq]
        exact ⟨⟨hquote, fun hc ↦ hplain (.inl hc)⟩, by omega⟩
      rw [weight_cons, weigh_of_isPlain hisPlain]

theorem readChar_eq_end (h : readChar cs = some (none, rest)) : weight cs = 1 + weight rest := by
  have hquote : weigh '"' = 1 := by decide
  unfold readChar at h
  split at h
  · cases h
  · cases h
    rw [weight_cons, hquote]
  · obtain ⟨_, _, heq⟩ := Option.map_eq_some_iff.mp h
    cases heq
  · obtain ⟨_, _, heq⟩ := Option.map_eq_some_iff.mp h
    cases heq
  · split at h <;> cases h

/-- A string is not lighter than what is written for it. -/
theorem readString_eq_some {fuel : Nat} (h : readString fuel cs = some (text, rest)) :
    weight (text.flatMap escapeChar) + 1 + weight rest ≤ weight cs := by
  induction fuel generalizing cs text with
  | zero => cases h
  | succ fuel ih =>
    rw [readString] at h
    cases hchar : readChar cs with
    | none =>
      rw [hchar] at h
      cases h
    | some hit =>
      obtain ⟨_ | c, after⟩ := hit
      · rw [hchar] at h
        cases h
        rw [readChar_eq_end hchar]
        simp
      · rw [hchar] at h
        obtain ⟨hit, hread, heq⟩ := Option.map_eq_some_iff.mp h
        cases heq
        have hle := readChar_eq_some hchar
        have htail := ih hread
        rw [flatMap_cons, weight_append]
        omega

end

/-! ### Writing a document -/

section

variable (body : String → List Char)

mutual

/-- What the strings that are values weigh is added to the weight of the rest. -/
theorem weight_write (document : Document) : weight (write id body document) =
    weight (write id (fun _ ↦ []) document) + (document.texts.map fun s ↦ weight (body s)).sum := by
  cases document with
  | null | number n | special x => rfl
  | bool b => cases b <;> rfl
  | str s =>
    simp only [write, Document.texts, weight_cons, weight_append, weight_nil, map_singleton,
      sum_singleton]
    omega
  | list items => simp only [write, Document.texts, weight_cons, weight_writeElements items, Nat.add_assoc]
  | dict items => simp only [write, Document.texts, weight_cons, weight_writeMembers items, Nat.add_assoc]

theorem weight_writeElements (items : List Document) (separator : List Char) :
    weight (writeElements id body separator items) =
      weight (writeElements id (fun _ ↦ []) separator items) +
        ((textsOfList items).map fun s ↦ weight (body s)).sum := by
  cases items with
  | nil => rfl
  | cons item items =>
    simp only [writeElements, textsOfList, weight_append, weight_write item, weight_writeElements items,
      map_append, sum_append]
    omega

theorem weight_writeMembers (items : List (String × Document)) (separator : List Char) :
    weight (writeMembers id body separator items) =
      weight (writeMembers id (fun _ ↦ []) separator items) +
        ((textsOfItems items).map fun s ↦ weight (body s)).sum := by
  cases items with
  | nil => rfl
  | cons item items =>
    simp only [writeMembers, textsOfItems, weight_append, weight_cons, weight_write item.2,
      weight_writeMembers items, map_append, sum_append]
    omega

end

def memberWeight (item : String × Document) : Nat :=
  4 + weight (escape item.1) + weight (write id body item.2)

theorem weight_writeElements_le (items : List Document) :
    weight (writeElements id body [',', ' '] items) ≤ 1 + weight (writeElements id body [] items) := by
  cases items with
  | nil => exact Nat.le_add_left _ _
  | cons item items =>
    rw [writeElements_cons, weight_cons, weight_cons, ← Nat.add_assoc]
    exact le_rfl

theorem weight_writeMembers_comma (items : List (String × Document)) :
    weight (writeMembers id body [',', ' '] items) = 1 + (items.map (memberWeight body)).sum := by
  induction items with
  | nil => rfl
  | cons item items ih =>
    have hcomma : weight [',', ' '] = 1 := by decide
    have hquote : weigh '"' = 1 := by decide
    have hcolon : weigh ':' = 1 := by decide
    have hspace : weigh ' ' = 0 := by decide
    simp only [writeMembers, map_id, id_eq, weight_append, weight_cons, hcomma, hquote, hcolon,
      hspace, ih, map_cons, sum_cons, memberWeight]
    omega

/-- The first item has no comma in front of it, and a dict without items has two braces. -/
theorem weight_writeMembers_nil (items : List (String × Document)) :
    weight (writeMembers id body [] items) = max 1 (items.map (memberWeight body)).sum := by
  cases items with
  | nil => rfl
  | cons item items =>
    have hcomma : weigh ',' = 1 := by decide
    have hspace : weigh ' ' = 0 := by decide
    have hweight := weight_writeMembers_comma body (item :: items)
    have hpos : 4 ≤ memberWeight body item := by
      rw [memberWeight]
      omega
    rw [writeMembers_cons, weight_cons, weight_cons, hcomma, hspace] at hweight
    rw [map_cons, sum_cons] at hweight ⊢
    omega

/-- A dict is not heavier than the pairs that it is made from. -/
theorem weight_itemsOf_le (pairs : List (String × Document)) :
    weight (writeMembers id body [] (itemsOf pairs)) ≤ weight (writeMembers id body [] pairs) := by
  have hsum := Dict.sum_map_setAll_le (memberWeight body) Dict.empty pairs
  rw [weight_writeMembers_nil, weight_writeMembers_nil]
  refine max_le_max le_rfl (hsum.trans ?_)
  exact (Nat.zero_add _).le

end

/-! ### Reading a document -/

section

variable {cs text rest : List Char} {document : Document}

@[simp] theorem weight_dropWhile_isBlank (cs : List Char) : weight (cs.dropWhile isBlank) = weight cs := by
  induction cs with
  | nil => rfl
  | cons c cs ih =>
    rw [dropWhile_cons]
    split
    · next hblank =>
      have hc : weigh c = 0 := by
        simp only [isBlank, Bool.or_eq_true, beq_iff_eq] at hblank
        rcases hblank with ((rfl | rfl) | rfl) | rfl <;> decide
      rw [ih, weight_cons, hc, Nat.zero_add]
    · rfl

theorem readConstant_eq_some (h : readConstant cs = some (document, rest)) :
    cs = dumps document ++ rest := by
  unfold readConstant at h
  split at h <;> cases h <;> rfl

theorem readNumber_eq_some (h : readNumber cs = some (document, rest)) :
    cs = dumps document ++ rest := by
  unfold readNumber at h
  split at h
  · cases h
    rw [dumps, write, map_id, takeWhile_append_dropWhile]
  · cases h

mutual

/-- A text is not lighter than what is written for the document that is read from it. -/
theorem readValue_eq_some (fuel : Nat) {cs rest : List Char} {document : Document}
    (h : readValue fuel cs = some (document, rest)) :
    weight (dumps document) + weight rest ≤ weight cs := by
  cases fuel with
  | zero => cases h
  | succ fuel =>
    unfold readValue at h
    split at h
    · next cs =>
      obtain ⟨hit, hread, heq⟩ := Option.map_eq_some_iff.mp h
      cases heq
      have hle := readString_eq_some hread
      have hquote : weigh '"' = 1 := by decide
      simp only [dumps, write, escape, String.toList_ofList, weight_cons, weight_append, weight_nil,
        id_eq, hquote]
      omega
    · next cs =>
      have hopen : weigh '[' = 1 := by decide
      have hdrop := weight_dropWhile_isBlank cs
      split at h
      · next heq =>
        cases h
        have hclose : weigh ']' = 1 := by decide
        rw [heq, weight_cons, hclose] at hdrop
        rw [weight_cons, hopen, ← hdrop]
        exact (Nat.add_assoc _ _ _).le
      · obtain ⟨hit, hread, heq⟩ := Option.map_eq_some_iff.mp h
        cases heq
        have hle := readElements_eq_some fuel hread
        rw [weight_cons, hopen, dumps, write, weight_cons, id_eq, hopen]
        omega
    · next cs =>
      have hopen : weigh '\x7b' = 1 := by decide
      have hdrop := weight_dropWhile_isBlank cs
      split at h
      · next heq =>
        cases h
        have hclose : weigh '\x7d' = 1 := by decide
        rw [heq, weight_cons, hclose] at hdrop
        rw [weight_cons, hopen, ← hdrop]
        exact (Nat.add_assoc _ _ _).le
      · obtain ⟨hit, hread, heq⟩ := Option.map_eq_some_iff.mp h
        cases heq
        have hle := readMembers_eq_some fuel hread
        have hitems := weight_itemsOf_le escape hit.1
        rw [weight_cons, hopen, dumps, write, weight_cons, id_eq, hopen]
        omega
    · have hcs : cs = dumps document ++ rest := by
        rcases Option.or_eq_some_iff.mp h with h | h
        · exact readConstant_eq_some h
        · exact readNumber_eq_some h.2
      rw [hcs, weight_append]

theorem readElements_eq_some (fuel : Nat) {cs rest : List Char} {items : List Document}
    (h : readElements fuel cs = some (items, rest)) :
    weight (writeElements id escape [] items) + weight rest ≤ weight cs := by
  cases fuel with
  | zero => cases h
  | succ fuel =>
    unfold readElements at h
    cases hvalue : readValue fuel cs with
    | none =>
      rw [hvalue] at h
      cases h
    | some hit =>
      obtain ⟨item, after⟩ := hit
      have hitem := readValue_eq_some fuel hvalue
      have hdrop := weight_dropWhile_isBlank after
      rw [hvalue] at h
      dsimp only at h
      split at h
      · next heq =>
        cases h
        have hclose : weigh ']' = 1 := by decide
        rw [heq, weight_cons, hclose] at hdrop
        simp only [writeElements, map_nil, nil_append, weight_append, weight_cons,
          weight_nil, id_eq, hclose]
        rw [dumps] at hitem
        omega
      · next after' heq =>
        obtain ⟨hit, hread, heq'⟩ := Option.map_eq_some_iff.mp h
        cases heq'
        have hcomma : weigh ',' = 1 := by decide
        have hle := readElements_eq_some fuel hread
        have hnext := weight_writeElements_le escape hit.1
        rw [heq, weight_cons, hcomma] at hdrop
        rw [weight_dropWhile_isBlank] at hle
        rw [writeElements, map_nil, nil_append, weight_append]
        rw [dumps] at hitem
        omega
      · cases h

theorem readMembers_eq_some (fuel : Nat) {cs rest : List Char} {items : List (String × Document)}
    (h : readMembers fuel cs = some (items, rest)) :
    weight (writeMembers id escape [] items) + weight rest ≤ weight cs := by
  cases fuel with
  | zero => cases h
  | succ fuel =>
    unfold readMembers at h
    split at h
    case h_2 => cases h
    case h_1 cs =>
      cases hkey : readString cs.length cs with
      | none =>
        rw [hkey] at h
        cases h
      | some hit =>
        obtain ⟨key, after⟩ := hit
        have hstring := readString_eq_some hkey
        have hquote : weigh '"' = 1 := by decide
        have hcolon : weigh ':' = 1 := by decide
        have hspace : weigh ' ' = 0 := by decide
        have hdrop := weight_dropWhile_isBlank after
        rw [hkey] at h
        dsimp only at h
        split at h
        case h_2 => cases h
        case h_1 afterKey heq =>
          rw [heq, weight_cons, hcolon] at hdrop
          cases hvalue : readValue fuel (afterKey.dropWhile isBlank) with
          | none =>
            rw [hvalue] at h
            cases h
          | some hit =>
            obtain ⟨item, afterItem⟩ := hit
            have hitem := readValue_eq_some fuel hvalue
            have hdropItem := weight_dropWhile_isBlank afterItem
            rw [weight_dropWhile_isBlank, dumps] at hitem
            rw [hvalue] at h
            dsimp only at h
            split at h
            · next heq =>
              cases h
              have hclose : weigh '\x7d' = 1 := by decide
              rw [heq, weight_cons, hclose] at hdropItem
              simp only [writeMembers, escape, String.toList_ofList, map_nil, map_id,
                nil_append, weight_append, weight_cons, weight_nil, id_eq, hquote, hcolon, hspace,
                hclose]
              omega
            · next heq =>
              obtain ⟨hit, hread, heq'⟩ := Option.map_eq_some_iff.mp h
              cases heq'
              have hcomma : weigh ',' = 1 := by decide
              have hle := readMembers_eq_some fuel hread
              have hfirst := weight_writeMembers_nil escape ((String.ofList key, item) :: hit.1)
              have hnext := weight_writeMembers_nil escape hit.1
              rw [heq, weight_cons, hcomma] at hdropItem
              rw [weight_dropWhile_isBlank] at hle
              rw [map_cons, sum_cons, memberWeight, escape, String.toList_ofList] at hfirst
              rw [weight_cons, hquote]
              dsimp only at hfirst ⊢
              omega
            · cases h

end

/-- No text of a document is lighter than the one that `json.dumps` writes. -/
theorem weight_dumps_le (h : loads text = some document) : weight (dumps document) ≤ weight text := by
  unfold loads at h
  split at h
  · cases h
  · next heq =>
    split at h
    · cases h
      have hle := readValue_eq_some _ heq
      rw [weight_dropWhile_isBlank] at hle
      omega
    · cases h

end

end Json
