import BnkForge.Catalog.Versions
import BnkForge.Lib.Lexicographic

/-!
# Semantic versions

What semantic versioning says of the order of versions, and what `version_sort_key`
(`backend/utils/catalog_versioning.py:29–50`) makes of it: the name of a pre-release is compared as one text,
not identifier by identifier.
-/

namespace BnkForge.Semver

open Python Catalog Lexicographic List

/-! ### Semantic versions -/

def isIdentifierChar (c : Char) : Bool := c.isAlphanum || c == '-'

@[ext] structure Identifier where
  text : List Char
  ne_nil : text ≠ []
  chars : ∀ c ∈ text, isIdentifierChar c = true
  noLeadingZero : (∀ c ∈ text, c.isDigit = true) → text = ['0'] ∨ text.head? ≠ some '0'
  deriving DecidableEq

/-- A semantic version, with a `v` in front of it if `leadingV`. -/
structure Version where
  leadingV : Bool
  major : Nat
  minor : Nat
  patch : Nat
  prerelease : List Identifier
  build : List (List Char)
  buildChars : ∀ identifier ∈ build, identifier ≠ [] ∧ ∀ c ∈ identifier, isIdentifierChar c = true

/-- Identifiers between dots, behind a mark. -/
def marked (mark : Char) : List (List Char) → List Char
  | [] => []
  | first :: rest => mark :: (first ++ Path.joined '.' rest)

def Version.core (v : Version) : List Char :=
  Nat.toDigits 10 v.major ++ '.' :: (Nat.toDigits 10 v.minor ++ '.' :: Nat.toDigits 10 v.patch)

def Version.text (v : Version) : String :=
  String.ofList ((if v.leadingV then ['v'] else []) ++
    (v.core ++ (marked '-' (v.prerelease.map Identifier.text) ++ marked '+' v.build)))

/-! ### Their precedence -/

def Identifier.isNumeric (x : Identifier) : Bool := x.text.all Char.isDigit

def Identifier.number (x : Identifier) : Nat := Nat.ofDigitChars 10 x.text 0

/-- Numbers are compared as such and come before the other identifiers, which are compared as texts. -/
def Identifier.precedence (x y : Identifier) : Ordering :=
  match x.isNumeric, y.isNumeric with
  | true, true => comparison x.number y.number
  | true, false => .lt
  | false, true => .gt
  | false, false => comparison x.text y.text

/-- The identifiers are compared one by one; where all of the fewer ones are the same, these come first. -/
def precedenceOfIdentifiers : List Identifier → List Identifier → Ordering
  | [], [] => .eq
  | [], _ :: _ => .lt
  | _ :: _, [] => .gt
  | x :: xs, y :: ys => (x.precedence y).then (precedenceOfIdentifiers xs ys)

/-- A release comes behind its pre-releases. -/
def precedenceOfPrereleases : List Identifier → List Identifier → Ordering
  | [], [] => .eq
  | [], _ :: _ => .gt
  | _ :: _, [] => .lt
  | xs, ys => precedenceOfIdentifiers xs ys

def precedence (v w : Version) : Ordering :=
  (comparison v.major w.major).then ((comparison v.minor w.minor).then ((comparison v.patch w.patch).then
    (precedenceOfPrereleases v.prerelease w.prerelease)))

/-! ### The key of a version -/

section

variable {c : Char}

theorem isSpace_of_isIdentifierChar (h : isIdentifierChar c = true) : isSpace c = false :=
  isSpace_of_forall (by decide) h

theorem ne_of_isIdentifierChar (h : isIdentifierChar c = true) : c ≠ '.' ∧ c ≠ '+' := by
  constructor <;> rintro rfl <;> cases h

theorem mem_core {v : Version} (h : c ∈ v.core) : c.isDigit = true ∨ c = '.' := by
  simp only [Version.core, mem_append, mem_cons] at h
  rcases h with h | rfl | h | rfl | h
  · exact Or.inl (isDigit_of_mem_toDigits h)
  · exact Or.inr rfl
  · exact Or.inl (isDigit_of_mem_toDigits h)
  · exact Or.inr rfl
  · exact Or.inl (isDigit_of_mem_toDigits h)

theorem mem_marked {mark : Char} {identifiers : List (List Char)} (h : c ∈ marked mark identifiers) :
    c = mark ∨ c = '.' ∨ ∃ identifier ∈ identifiers, c ∈ identifier := by
  cases identifiers with
  | nil => cases h
  | cons first rest =>
    simp only [marked, Path.joined, mem_cons, mem_append, mem_flatMap] at h
    rcases h with h | h | ⟨identifier, hmem, h | h⟩
    · exact Or.inl h
    · exact Or.inr (Or.inr ⟨first, mem_cons_self, h⟩)
    · exact Or.inr (Or.inl h)
    · exact Or.inr (Or.inr ⟨identifier, mem_cons_of_mem _ hmem, h⟩)

end

section

variable (v : Version)

/-- How the pre-release of a version is written. -/
def Version.prereleaseText : List Char := (marked '-' (v.prerelease.map Identifier.text)).drop 1

theorem mem_prerelease {c : Char} (h : c ∈ marked '-' (v.prerelease.map Identifier.text)) :
    isIdentifierChar c = true ∨ c = '.' := by
  rcases mem_marked h with rfl | rfl | ⟨_, hmem, h⟩
  · exact Or.inl rfl
  · exact Or.inr rfl
  · obtain ⟨x, -, rfl⟩ := mem_map.mp hmem
    exact Or.inl (x.chars c h)

theorem isSpace_of_mem_text {c : Char} (h : c ∈ v.text.toList) : isSpace c = false := by
  simp only [Version.text, String.toList_ofList, mem_append] at h
  rcases h with h | h | h | h
  · split at h
    · obtain rfl := mem_singleton.mp h
      rfl
    · cases h
  · rcases mem_core h with h | rfl
    · exact isSpace_of_isDigit h
    · rfl
  · rcases mem_prerelease v h with h | rfl
    · exact isSpace_of_isIdentifierChar h
    · rfl
  · rcases mem_marked h with rfl | rfl | ⟨identifier, hmem, h⟩
    · rfl
    · rfl
    · exact isSpace_of_isIdentifierChar ((v.buildChars identifier hmem).2 c h)

theorem numericParts_core :
    numericParts (v.core.splitOn '.') = [(v.major : Int), (v.minor : Int), (v.patch : Int)] := by
  have hdot : ∀ n, '.' ∉ Nat.toDigits 10 n := by
    intro n h
    have := isDigit_of_mem_toDigits h
    cases this
  have hint : ∀ n : Nat, Python.int (String.ofList (Nat.toDigits 10 n)) = some (n : Int) := by
    intro n
    rw [← int_toString n, Nat.toString_eq_repr, ← Nat.toList_repr, String.ofList_toList]
  rw [Version.core, splitOn_append_cons_self_of_not_mem (hdot _),
    splitOn_append_cons_self_of_not_mem (hdot _), splitOn_eq_singleton (hdot _)]
  simp only [numericParts, hint]

theorem takeWhile_marked (mark : Char) (identifiers : List (List Char)) :
    (marked mark identifiers).takeWhile (· ≠ mark) = [] := by
  cases identifiers <;> simp [marked]

theorem dropWhile_marked (mark : Char) (identifiers : List (List Char)) :
    (marked mark identifiers).dropWhile (· ≠ mark) = marked mark identifiers := by
  cases identifiers <;> simp [marked]

/-- The numbers start with a digit, so that a `v` can be taken off in front of them. -/
theorem dropWhile_leadingV (rest : List Char) :
    ((if v.leadingV then ['v'] else []) ++ (v.core ++ rest)).dropWhile (fun c ↦ c = 'v' ∨ c = 'V') =
      v.core ++ rest := by
  obtain ⟨d, ds, hd⟩ := exists_cons_of_ne_nil (Nat.toDigits_ne_nil (n := v.major) (b := 10))
  have hdigit : d.isDigit = true := isDigit_of_mem_toDigits (n := v.major) (by simp [hd])
  have hnot : ¬ (d = 'v' ∨ d = 'V') := by
    rintro (rfl | rfl) <;> cases hdigit
  split <;> simp [Version.core, hd, hnot]

/-- What is left of a version without its `v` and what was built of it. -/
theorem bare_eq :
    ((strip v.text.toList).dropWhile fun c ↦ c = 'v' ∨ c = 'V').takeWhile (· ≠ '+') =
      v.core ++ marked '-' (v.prerelease.map Identifier.text) := by
  rw [strip_of_not_isSpace fun c ↦ isSpace_of_mem_text v, Version.text, String.toList_ofList,
    dropWhile_leadingV, ← append_assoc, takeWhile_append_of_pos, takeWhile_marked, append_nil]
  intro c hc
  rw [decide_eq_true_iff]
  rintro rfl
  rcases mem_append.mp hc with h | h
  · rcases mem_core h with h | h <;> cases h
  · rcases mem_prerelease v h with h | h <;> cases h

theorem text_ne_empty : v.text ≠ "" := by
  intro h
  have hlist := congrArg String.toList h
  rw [Version.text, String.toList_ofList, String.toList_empty, append_eq_nil_iff] at hlist
  have hcore := (append_eq_nil_iff.mp hlist.2).1
  simp [Version.core] at hcore

theorem versionSortKey_text : versionSortKey (some v.text) =
    toLex ([(v.major : Int), (v.minor : Int), (v.patch : Int)],
      toLex (if v.prerelease = [] then 1 else 0, v.prereleaseText)) := by
  have hcore : ∀ c ∈ v.core, decide (c ≠ '-') = true := by
    intro c hc
    rw [decide_eq_true_iff]
    rintro rfl
    rcases mem_core hc with h | h <;> cases h
  have hfilter : (some v.text).filter (· ≠ "") = some v.text := by
    simp [Option.filter, text_ne_empty v]
  have hprerelease : v.prereleaseText.isEmpty = true ↔ v.prerelease = [] := by
    unfold Version.prereleaseText
    cases v.prerelease with
    | nil => simp [marked]
    | cons x xs => simp [marked, x.ne_nil]
  rw [versionSortKey, hfilter]
  dsimp only
  rw [bare_eq, takeWhile_append_of_pos hcore, dropWhile_append_of_pos hcore, takeWhile_marked,
    dropWhile_marked, append_nil, numericParts_core, ← Version.prereleaseText]
  simp only [hprerelease]

end

/-! ### Identifiers -/

theorem Identifier.isNumeric_iff {x : Identifier} : x.isNumeric = true ↔ ∀ c ∈ x.text, c.isDigit = true :=
  all_eq_true

theorem Identifier.precedence_eq_eq {x y : Identifier} : x.precedence y = .eq ↔ x = y := by
  have htext : ∀ x : Identifier, x.isNumeric = true → Nat.toDigits 10 x.number = x.text := fun x hx ↦
    toDigits_ofDigitChars (isNumeric_iff.mp hx) x.ne_nil (x.noLeadingZero (isNumeric_iff.mp hx))
  rw [Identifier.precedence, Identifier.ext_iff]
  cases hx : x.isNumeric <;> cases hy : y.isNumeric <;> dsimp only
  · exact comparison_eq_eq x.text y.text
  · refine iff_of_false (by decide) fun h ↦ ?_
    rw [isNumeric, h, ← isNumeric, hy] at hx
    cases hx
  · refine iff_of_false (by decide) fun h ↦ ?_
    rw [isNumeric, h, ← isNumeric, hy] at hx
    cases hx
  · rw [comparison_eq_eq]
    refine ⟨fun h ↦ ?_, fun h ↦ by rw [number, h, ← number]⟩
    rw [← htext x hx, ← htext y hy, h]

theorem Identifier.precedence_swap (x y : Identifier) : (x.precedence y).swap = y.precedence x := by
  unfold precedence
  cases x.isNumeric <;> cases y.isNumeric <;> dsimp only
  · exact comparison_swap x.text y.text
  · rfl
  · rfl
  · exact comparison_swap x.number y.number

theorem Identifier.isNumeric_of_precedence {x y : Identifier} (h : x.precedence y = .lt)
    (hnot : ¬ x.text < y.text) : x.isNumeric = true := by
  by_contra hx
  rw [Bool.not_eq_true] at hx
  unfold precedence at h
  rw [hx] at h
  cases hy : y.isNumeric
  · rw [hy] at h
    exact hnot ((comparison_eq_lt _ _).mp h)
  · rw [hy] at h
    cases h

/-! ### The identifiers of two pre-releases -/

/-- The identifier that comes first is smaller as a text too, and does not go on, with more identifiers
behind it, where the other one goes on with a dash. -/
def Follows (x : Identifier) (xs : List Identifier) (y : Identifier) : Prop :=
  x.text < y.text ∧ (xs = [] ∨ ¬ x.text ++ ['-'] <+: y.text)

/-- Of the first identifiers that differ, the one that comes first is also the smaller text. -/
def InStep : List Identifier → List Identifier → Prop
  | x :: xs, y :: ys =>
    match x.precedence y with
    | .eq => InStep xs ys
    | .lt => Follows x xs y
    | .gt => Follows y ys x
  | _, _ => True

theorem lt_dot_iff {c : Char} (h : isIdentifierChar c = true) : c < '.' ↔ c = '-' := by
  have hbefore : ∀ n < 46, isIdentifierChar (Char.ofNat n) = true → n = 45 := by decide
  refine ⟨fun hlt ↦ ?_, by rintro rfl; decide⟩
  have hcode := hbefore c.toNat (UInt32.lt_iff_toNat_lt.mp hlt) (by rwa [Char.ofNat_toNat])
  rw [← Char.ofNat_toNat c, hcode]

def dotted (xs : List Identifier) : List Char := Path.joined '.' (xs.map Identifier.text)

theorem follows_iff {x y : Identifier} (h : x.precedence y = .lt) (xs ys : List Identifier) :
    x.text ++ dotted xs < y.text ++ dotted ys ↔ Follows x xs y := by
  have hdot : ∀ z : Identifier, '.' ∉ z.text := fun z hz ↦ (ne_of_isIdentifierChar (z.chars _ hz)).1 rfl
  unfold Follows
  by_cases hlt : x.text < y.text
  · rw [dotted, dotted, append_joined_lt_iff hlt (hdot y), map_eq_nil_iff, and_iff_right hlt]
    refine or_congr_right (not_congr ?_)
    constructor
    · rintro ⟨c, hc, hprefix⟩
      have hmem : c ∈ y.text := hprefix.subset (by simp)
      rwa [(lt_dot_iff (y.chars c hmem)).mp hc] at hprefix
    · exact fun hprefix ↦ ⟨'-', by decide, hprefix⟩
  · have hdigits := Identifier.isNumeric_iff.mp (Identifier.isNumeric_of_precedence h hlt)
    refine iff_of_false ?_ fun hfollows ↦ hlt hfollows.1
    have hgt : y.text < x.text := by
      refine lt_of_le_of_ne (not_lt.mp hlt) fun htext ↦ ?_
      rw [Identifier.precedence_eq_eq.mpr (Identifier.ext htext.symm)] at h
      cases h
    refine lt_asymm ((append_joined_lt_iff hgt (hdot x) _ _).mpr (Or.inr ?_))
    rintro ⟨c, hc, hprefix⟩
    have hmem : c ∈ x.text := hprefix.subset (by simp)
    obtain rfl := (lt_dot_iff (x.chars c hmem)).mp hc
    have := hdigits _ hmem
    cases this

theorem comparison_dotted_iff (xs ys : List Identifier) :
    comparison (dotted xs) (dotted ys) = precedenceOfIdentifiers xs ys ↔ InStep xs ys := by
  induction xs generalizing ys with
  | nil => cases ys <;> exact iff_of_true rfl trivial
  | cons x xs ih =>
    cases ys with
    | nil => exact iff_of_true rfl trivial
    | cons y ys =>
      have hcons : comparison (dotted (x :: xs)) (dotted (y :: ys)) =
          comparison (x.text ++ dotted xs) (y.text ++ dotted ys) := by
        simp only [dotted, map_cons, Path.joined_cons, comparison_cons_cons, comparison_self, Ordering.eq_then]
      rw [hcons, precedenceOfIdentifiers, InStep]
      cases h : x.precedence y with
      | eq =>
        obtain rfl := Identifier.precedence_eq_eq.mp h
        rw [comparison_append_left, Ordering.eq_then]
        exact ih ys
      | lt => exact (comparison_eq_lt _ _).trans (follows_iff h xs ys)
      | gt =>
        have hswap : y.precedence x = .lt := by rw [← Identifier.precedence_swap, h]; rfl
        exact (comparison_eq_gt _ _).trans (follows_iff hswap ys xs)

/-! ### The order of the keys -/

theorem comparison_natCast (m n : Nat) : comparison (m : Int) (n : Int) = comparison m n := by
  simp only [comparison, cmp, cmpUsing, Int.ofNat_lt]

theorem then_eq_then_iff {o p q : Ordering} : o.then p = o.then q ↔ (o = .eq → p = q) := by
  cases o <;> simp

theorem comparison_prerelease_iff (v w : Version) :
    (comparison (if v.prerelease = [] then 1 else 0) (if w.prerelease = [] then 1 else 0)).then
        (comparison v.prereleaseText w.prereleaseText) = precedenceOfPrereleases v.prerelease w.prerelease ↔
      InStep v.prerelease w.prerelease := by
  unfold Version.prereleaseText
  cases hv : v.prerelease with
  | nil => cases w.prerelease <;> exact iff_of_true rfl trivial
  | cons x xs =>
    cases hw : w.prerelease with
    | nil => exact iff_of_true rfl trivial
    | cons y ys =>
      have hcons : ∀ (z : Identifier) (zs : List Identifier),
          dotted (z :: zs) = '.' :: (marked '-' ((z :: zs).map Identifier.text)).drop 1 := by
        intro z zs
        simp [dotted, marked]
      have hdotted := comparison_dotted_iff (x :: xs) (y :: ys)
      rw [hcons, hcons, comparison_cons_cons, comparison_self, Ordering.eq_then] at hdotted
      rw [← hdotted, if_neg (cons_ne_nil x xs), if_neg (cons_ne_nil y ys), comparison_self,
        Ordering.eq_then]
      rfl

/-- The keys of two versions compare as the versions do exactly where, their numbers being the same, the
identifiers of the pre-releases are in step. -/
theorem versionSortKey_precedence_iff (v w : Version) :
    comparison (versionSortKey (some v.text)) (versionSortKey (some w.text)) = precedence v w ↔
      (v.major = w.major → v.minor = w.minor → v.patch = w.patch →
        InStep v.prerelease w.prerelease) := by
  rw [versionSortKey_text, versionSortKey_text, comparison_toLex, comparison_toLex]
  simp only [comparison_cons_cons, comparison_natCast, comparison_self, precedence, Ordering.then_assoc, then_eq_then_iff,
    comparison_eq_eq, Ordering.eq_then, comparison_prerelease_iff]

/-- `1.0.0-rc.10`, for the number of the candidate. -/
def candidate (number : List Char) (hne : number ≠ [])
    (hdigits : ∀ c ∈ number, isIdentifierChar c = true) (hzero : number.head? ≠ some '0') : Version where
  leadingV := false
  major := 1
  minor := 0
  patch := 0
  prerelease := [⟨['r', 'c'], by decide, List.all_eq_true.mp rfl, fun _ ↦ Or.inr (by decide)⟩, ⟨number, hne, hdigits, fun _ ↦ Or.inr hzero⟩]
  build := []
  buildChars := by simp

/-- The tenth candidate of a release has a smaller key than the ninth. -/
theorem tenth_candidate_below_ninth :
    let ninth := candidate ['9'] (by decide) (List.all_eq_true.mp rfl) (by decide)
    let tenth := candidate ['1', '0'] (by decide) (List.all_eq_true.mp rfl) (by decide)
    tenth.text = "1.0.0-rc.10" ∧ ninth.text = "1.0.0-rc.9" ∧ precedence tenth ninth = .gt ∧
      comparison (versionSortKey (some "1.0.0-rc.10")) (versionSortKey (some "1.0.0-rc.9")) = .lt := by
  refine ⟨by decide +kernel, by decide +kernel, by decide +kernel, by decide +kernel⟩

end BnkForge.Semver
