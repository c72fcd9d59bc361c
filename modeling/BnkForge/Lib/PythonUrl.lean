import BnkForge.Lib.PythonValue
import Mathlib.Data.List.DropRight

/-!
# Host names of URLs

`urlparse(url).hostname` of Python. What Unicode normalization and the parser of IP addresses say is a
parameter.
-/

namespace Python

open List

/-- The URL without the control characters and the space in front of it and without the characters
that are not allowed in it. -/
def cleanedUrl (url : List Char) : List Char :=
  (url.dropWhile fun c ↦ c.toNat ≤ 0x20).filter fun c ↦ !(c == '\t' || c == '\r' || c == '\n')

def isSchemeChar (c : Char) : Bool := c.isAlphanum || c == '+' || c == '-' || c == '.'

def withoutScheme (url : List Char) : List Char :=
  let scheme := url.takeWhile (· != ':')
  match url.dropWhile (· != ':') with
  | ':' :: rest =>
    if (scheme.head?.any Char.isAlpha) && scheme.all isSchemeChar then rest else url
  | _ => url

/-- The network location of a URL without its scheme. -/
def netloc : List Char → List Char
  | '/' :: '/' :: rest => rest.takeWhile fun c ↦ !(c == '/' || c == '?' || c == '#')
  | _ => []

/-- `\Av[a-fA-F0-9]+\..+\Z`. -/
def isIpvFuture : List Char → Bool
  | 'v' :: cs =>
    let isHex := fun c : Char ↦ c.isDigit || ('a' ≤ c && c ≤ 'f') || ('A' ≤ c && c ≤ 'F')
    match cs.takeWhile isHex, cs.dropWhile isHex with
    | _ :: _, '.' :: rest => !rest.isEmpty && !rest.contains '\n'
    | _, _ => false
  | _ => false

section

variable (nfkc : List Char → List Char) (isIpv6 : List Char → Bool)

/-- The check of brackets: there are both or none, and an IP address is in them. -/
def bracketsValid (netloc : List Char) : Bool :=
  if netloc.contains '[' then
    netloc.contains ']' &&
      let host := ((netloc.dropWhile (· != '[')).drop 1).takeWhile (· != ']')
      if host.head? = some 'v' then isIpvFuture host else isIpv6 host
  else !netloc.contains ']'

/-- `_checknetloc`: normalization makes no delimiters. -/
def netlocValid (netloc : List Char) : Bool :=
  if netloc.all fun c ↦ c.toNat < 0x80 then true
  else
    let n := netloc.filter fun c ↦ !(c == '@' || c == ':' || c == '#' || c == '?')
    n == nfkc n || !(nfkc n).any fun c ↦ c == '/' || c == '?' || c == '#' || c == '@' || c == ':'

def hostOf (netloc : List Char) : List Char :=
  let hostinfo := netloc.rtakeWhile (· != '@')
  if hostinfo.contains '[' then ((hostinfo.dropWhile (· != '[')).drop 1).takeWhile (· != ']')
  else hostinfo.takeWhile (· != ':')

/-- `urlparse(url).hostname`. -/
def hostname (url : List Char) : Except Raised (Option (List Char)) :=
  let netloc := netloc (withoutScheme (cleanedUrl url))
  if bracketsValid isIpv6 netloc && netlocValid nfkc netloc then
    let host := hostOf netloc
    .ok (if host.isEmpty then none
      else some (lower (host.takeWhile (· != '%')) ++ host.dropWhile (· != '%')))
  else .error .valueError

end

theorem lower_ne_nil {cs : List Char} (h : cs ≠ []) : lower cs ≠ [] := by
  obtain ⟨c, cs, rfl⟩ := List.exists_cons_of_ne_nil h
  rw [lower, List.flatMap_cons]
  refine List.append_ne_nil_of_left_ne_nil ?_ _
  split
  · exact List.cons_ne_nil _ _
  · split <;> exact List.cons_ne_nil _ _

/-- A host has a name. -/
theorem hostname_ne_nil {nfkc : List Char → List Char} {isIpv6 : List Char → Bool} {url host : List Char}
    (h : hostname nfkc isIpv6 url = .ok (some host)) : host ≠ [] := by
  unfold hostname at h
  dsimp only at h
  split at h
  case isFalse => cases h
  case isTrue =>
    split at h
    case isTrue => cases h
    case isFalse hne =>
      cases h
      generalize hostOf (netloc (withoutScheme (cleanedUrl url))) = name at hne ⊢
      by_cases htake : name.takeWhile (· != '%') = []
      · refine append_ne_nil_of_right_ne_nil _ fun hdrop ↦ hne ?_
        rw [← takeWhile_append_dropWhile (p := (· != '%')) (l := name), htake, hdrop]
        rfl
      · exact append_ne_nil_of_left_ne_nil (lower_ne_nil htake) _

/-- The characters of a number. -/
def isPortChar (c : Char) : Bool := c.isDigit || c == '-'

theorem isPortChar_toString (n : Int) : ∀ c ∈ (toString n).toList, isPortChar c = true := by
  have hnat : ∀ m : Nat, ∀ c ∈ (toString m).toList, isPortChar c = true := by
    intro m c hc
    rw [Nat.toString_eq_repr, Nat.toList_repr] at hc
    rw [isPortChar, Nat.isDigit_of_mem_toDigits (by decide) (by decide) hc, Bool.true_or]
  cases n with
  | ofNat m => exact hnat m
  | negSucc m =>
    intro c hc
    have htext : (toString (Int.negSucc m)).toList = '-' :: (toString (m + 1)).toList :=
      String.toList_append
    rw [htext, mem_cons] at hc
    rcases hc with rfl | hc
    · decide
    · exact hnat _ c hc

theorem ne_of_isPortChar {c d : Char} (h : isPortChar c = true) (hd : isPortChar d = false) : c ≠ d := by
  rintro rfl
  rw [h] at hd
  cases hd

/-- The host of a URL of the local machine. -/
theorem hostname_loopback (nfkc : List Char → List Char) (isIpv6 : List Char → Bool) {port : List Char}
    (h : ∀ c ∈ port, isPortChar c = true) :
    hostname nfkc isIpv6 ("https://127.0.0.1:".toList ++ port) = .ok (some "127.0.0.1".toList) := by
  have hne : ∀ text : List Char, ∀ d ∉ text, isPortChar d = false → ∀ c ∈ text ++ port, c ≠ d := by
    intro text d htext hd c hc
    rcases mem_append.mp hc with hc | hc
    · rintro rfl
      exact htext hc
    · exact ne_of_isPortChar (h c hc) hd
  have hclean : cleanedUrl ("https://127.0.0.1:".toList ++ port) = "https://127.0.0.1:".toList ++ port := by
    have hstart : ("https://127.0.0.1:".toList ++ port).dropWhile (fun c ↦ c.toNat ≤ 0x20) =
        "https://127.0.0.1:".toList ++ port := dropWhile_cons_of_neg (by decide)
    rw [cleanedUrl, hstart]
    refine filter_eq_self.mpr fun c hc ↦ ?_
    have htab := hne _ '\t' (by decide) (by decide) c hc
    have hreturn := hne _ '\r' (by decide) (by decide) c hc
    have hnewline := hne _ '\n' (by decide) (by decide) c hc
    simp [htab, hreturn, hnewline]
  have hscheme : withoutScheme ("https://127.0.0.1:".toList ++ port) =
      "//127.0.0.1:".toList ++ port := rfl
  have hnetloc : netloc (withoutScheme (cleanedUrl ("https://127.0.0.1:".toList ++ port))) =
      "127.0.0.1:".toList ++ port := by
    rw [hclean, hscheme]
    refine takeWhile_eq_self_iff.mpr fun c hc ↦ ?_
    have hslash := hne _ '/' (by decide) (by decide) c hc
    have hquery := hne _ '?' (by decide) (by decide) c hc
    have hfragment := hne _ '#' (by decide) (by decide) c hc
    simp [hslash, hquery, hfragment]
  have hopen : ("127.0.0.1:".toList ++ port).contains '[' = false := by
    rw [← Bool.not_eq_true, contains_iff_mem]
    exact fun hmem ↦ hne _ '[' (by decide) (by decide) _ hmem rfl
  have hclose : ("127.0.0.1:".toList ++ port).contains ']' = false := by
    rw [← Bool.not_eq_true, contains_iff_mem]
    exact fun hmem ↦ hne _ ']' (by decide) (by decide) _ hmem rfl
  have hascii : ("127.0.0.1:".toList ++ port).all (fun c ↦ c.toNat < 0x80) = true := by
    rw [all_append, Bool.and_eq_true]
    refine ⟨by decide, all_eq_true.mpr fun c hc ↦ ?_⟩
    have hchar := h c hc
    rw [isPortChar, Bool.or_eq_true, Char.isDigit_iff_toNat, beq_iff_eq] at hchar
    rcases hchar with ⟨-, hdigit⟩ | rfl
    · exact decide_eq_true (Nat.lt_of_le_of_lt hdigit (by decide))
    · decide
  have huser : ("127.0.0.1:".toList ++ port).rtakeWhile (· != '@') = "127.0.0.1:".toList ++ port := by
    refine rtakeWhile_eq_self_iff.mpr fun c hc ↦ ?_
    exact bne_iff_ne.mpr (hne _ '@' (by decide) (by decide) c hc)
  have hhost : hostOf ("127.0.0.1:".toList ++ port) = "127.0.0.1".toList := by
    rw [hostOf, huser, hopen, if_neg Bool.false_ne_true]
    rfl
  rw [hostname, hnetloc, bracketsValid, hopen, hclose, netlocValid, hascii, hhost]
  rfl

end Python
