import Mathlib.Logic.Basic
import ResetMethods.Package
import ResetMethods.Proofs.Text.Identifiers

/-!
# ResetMethods.Proofs.Imports.Names

Whether a guessed package name can stand in front of the names of the package.

* `namingStem`: what a path says of the name. `guessPackageName_eq`: the guess is made of it, with
  each character `cleaned` and an underscore in front where one is needed (`led`).
* `forall_mem_led_iff`, `forall_head_led_iff`, `led_eq_underscore_iff`, `led_eq_word_iff`: the
  characters of a guess, its first one, and guesses that are a given word.
* `isAliasName_guess_iff`: so these are the stems that give a name that an import can have.
* `unusable_guesses`: stems that give none.
-/

namespace ResetMethods

open Text

/-- The segment of a path that the package is named after, up to its first dot and without a
leading `go-`. -/
def namingStem (path : String) : List Char :=
  let stem := (namingSegment path.toList).takeWhile (· ≠ '.')
  (after? "go-".toList stem).getD stem

/-- A character that a guess keeps, or the underscore in its place. -/
def cleaned (c : Char) : Char := if isLetterOrNumber c || c == '_' then c else '_'

/-- An underscore stands in place of nothing and before a digit. -/
def led (cs : List Char) : List Char :=
  match cs with
  | [] => ['_']
  | c :: _ => if isAsciiDigit c then '_' :: cs else cs

theorem guessPackageName_eq (path : String) :
    guessPackageName path = String.ofList (led ((namingStem path).map cleaned)) := rfl

/-! ## Single characters -/

section Chars

variable {c : Char}

theorem isLetterOrNumber_underscore : isLetterOrNumber '_' = false := by decide +kernel

theorem cleaned_of_isLetterOrNumber (h : isLetterOrNumber c = true) : cleaned c = c := by
  simp [cleaned, h]

theorem cleaned_of_not (h : isLetterOrNumber c = false) : cleaned c = '_' := by
  by_cases hc : c = '_'
  · simp [cleaned, hc]
  · simp [cleaned, h, hc]

/-- No other character becomes a letter or a number. -/
theorem cleaned_eq {d : Char} (hd : isLetterOrNumber d = true) (h : cleaned c = d) : c = d := by
  cases hc : isLetterOrNumber c with
  | true => rwa [cleaned_of_isLetterOrNumber hc] at h
  | false =>
    rw [cleaned_of_not hc] at h
    rw [← h, isLetterOrNumber_underscore] at hd
    cases hd

theorem isAsciiDigit_cleaned : isAsciiDigit (cleaned c) = isAsciiDigit c := by
  cases hc : isLetterOrNumber c with
  | true => rw [cleaned_of_isLetterOrNumber hc]
  | false =>
    have hdigit : isAsciiDigit c = false := by
      rw [Bool.eq_false_iff]
      intro hdigit
      rw [isLetterOrNumber_of_isDecimalDigit (isDecimalDigit_of_isAsciiDigit hdigit)] at hc
      cases hc
    rw [cleaned_of_not hc, hdigit]
    decide

end Chars

/-! ## Guesses -/

section Guess

variable {stem : List Char}

theorem mem_led {cs : List Char} {c : Char} (h : c ∈ led cs) : c = '_' ∨ c ∈ cs := by
  cases cs with
  | nil => exact .inl (List.mem_singleton.1 h)
  | cons d ds =>
    rw [led] at h
    split at h
    · exact List.mem_cons.1 h
    · exact .inr h

theorem subset_led (cs : List Char) : cs ⊆ led cs := by
  intro c h
  cases cs with
  | nil => cases h
  | cons d ds =>
    rw [led]
    split
    · exact List.mem_cons_of_mem _ h
    · exact h

theorem forall_mem_led_iff : (∀ c ∈ led (stem.map cleaned),
      isLetter c = true ∨ isDecimalDigit c = true ∨ c = '_') ↔
    ∀ c ∈ stem, isLetterOrNumber c = true → isLetter c = true ∨ isDecimalDigit c = true := by
  constructor
  · intro h c hc hkept
    have hmem : c ∈ led (stem.map cleaned) := by
      refine subset_led _ (List.mem_map.2 ⟨c, hc, ?_⟩)
      exact cleaned_of_isLetterOrNumber hkept
    rcases h c hmem with hletter | hdigit | rfl
    · exact .inl hletter
    · exact .inr hdigit
    · rw [isLetterOrNumber_underscore] at hkept
      cases hkept
  · intro h c hc
    rcases mem_led hc with rfl | hc
    · exact .inr (.inr rfl)
    · obtain ⟨d, hd, rfl⟩ := List.mem_map.1 hc
      cases hkept : isLetterOrNumber d with
      | false => exact .inr (.inr (cleaned_of_not hkept))
      | true =>
        rw [cleaned_of_isLetterOrNumber hkept]
        exact (h d hd hkept).imp id .inl

theorem forall_head_led_iff : (∀ c ∈ (led (stem.map cleaned)).head?, isDecimalDigit c = false) ↔
    ∀ c ∈ stem.head?, isDecimalDigit c = true → isAsciiDigit c = true := by
  cases stem with
  | nil => simp [led, isDecimalDigit_underscore]
  | cons c rest =>
    rw [List.map_cons, led, isAsciiDigit_cleaned]
    cases hascii : isAsciiDigit c with
    | true => simp [isDecimalDigit_underscore, hascii]
    | false =>
      simp only [Bool.false_eq_true, if_false, List.head?_cons, Option.mem_some_iff, forall_eq',
        hascii, imp_false, Bool.not_eq_true]
      cases hkept : isLetterOrNumber c with
      | true => rw [cleaned_of_isLetterOrNumber hkept]
      | false =>
        have hdigit : isDecimalDigit c = false := by
          rw [Bool.eq_false_iff]
          intro hdigit
          rw [isLetterOrNumber_of_isDecimalDigit hdigit] at hkept
          cases hkept
        rw [cleaned_of_not hkept, hdigit, isDecimalDigit_underscore]

theorem led_eq_underscore_iff : led (stem.map cleaned) = ['_'] ↔
    stem.length < 2 ∧ ∀ c ∈ stem, isLetterOrNumber c = false := by
  cases stem with
  | nil => simp [led]
  | cons c rest =>
    rw [List.map_cons, led, isAsciiDigit_cleaned]
    cases hascii : isAsciiDigit c with
    | true =>
      have hkept := isLetterOrNumber_of_isDecimalDigit (isDecimalDigit_of_isAsciiDigit hascii)
      simp [hkept]
    | false =>
      have hcleaned : cleaned c = '_' ↔ isLetterOrNumber c = false := by
        cases hkept : isLetterOrNumber c with
        | false => simp [cleaned_of_not hkept]
        | true =>
          rw [cleaned_of_isLetterOrNumber hkept]
          simp only [Bool.true_eq_false, iff_false]
          rintro rfl
          rw [isLetterOrNumber_underscore] at hkept
          cases hkept
      cases rest with
      | nil => simp [hcleaned]
      | cons d ds =>
        have hlength : ¬ (c :: d :: ds).length < 2 := by
          simp only [List.length_cons]
          omega
        simp only [List.map_cons, Bool.false_eq_true, if_false, List.cons.injEq, reduceCtorEq,
          and_false, hlength, false_and]

theorem map_cleaned_eq_iff {word : List Char} (hall : ∀ c ∈ word, isLetterOrNumber c = true) :
    stem.map cleaned = word ↔ stem = word := by
  constructor
  · intro h
    induction stem generalizing word with
    | nil => exact h
    | cons c rest ih =>
      subst h
      obtain ⟨hc, hrest⟩ := List.forall_mem_cons.1 hall
      rw [List.map_cons, ← cleaned_eq hc rfl, ← ih hrest rfl]
  · rintro rfl
    exact (List.map_congr_left fun c hc => cleaned_of_isLetterOrNumber (hall c hc)).trans
      (List.map_id stem)

/-- A word of letters and numbers that starts with no digit is guessed from itself only. -/
theorem led_eq_word_iff {word : List Char} (hne : word ≠ [])
    (hall : ∀ c ∈ word, isLetterOrNumber c = true)
    (hhead : ∀ c ∈ word.head?, isAsciiDigit c = false) :
    led (stem.map cleaned) = word ↔ stem = word := by
  have hunderscore : '_' ∉ word := by
    intro hmem
    have hkept := hall '_' hmem
    rw [isLetterOrNumber_underscore] at hkept
    cases hkept
  refine Iff.trans ?_ (map_cleaned_eq_iff hall)
  cases hmap : stem.map cleaned with
  | nil =>
    constructor
    · rintro rfl
      exact absurd (List.mem_singleton_self _) hunderscore
    · exact fun h => absurd h.symm hne
  | cons c cs =>
    rw [led]
    split
    · next hdigit =>
      constructor
      · rintro rfl
        exact absurd List.mem_cons_self hunderscore
      · rintro rfl
        rw [hhead c rfl] at hdigit
        cases hdigit
    · exact Iff.rfl

theorem guess_mem_keywords_iff (path : String) :
    guessPackageName path ∈ keywords ↔ String.ofList (namingStem path) ∈ keywords := by
  have hword : ∀ word ∈ keywords, guessPackageName path = word ↔
      String.ofList (namingStem path) = word := by
    intro word hmem
    obtain ⟨hne, hall, hhead⟩ := keywords_plain word hmem
    rw [guessPackageName_eq, ← String.toList_inj, ← String.toList_inj, String.toList_ofList,
      String.toList_ofList]
    exact led_eq_word_iff hne hall hhead
  constructor
  · intro hmem
    rw [(hword _ hmem).1 rfl]
    exact hmem
  · intro hmem
    rw [(hword _ hmem).2 rfl]
    exact hmem

/-- The name that is guessed for a path is one that an import can have, if and only if its stem has no
letters and numbers but letters and decimal digits, starts with no digit beyond ASCII, has a
character that is kept or more than one, and is no keyword. -/
theorem isAliasName_guess_iff (path : String) :
    IsAliasName (guessPackageName path) ↔
      (∀ c ∈ namingStem path, isLetterOrNumber c = true →
        isLetter c = true ∨ isDecimalDigit c = true) ∧
      (∀ c ∈ (namingStem path).head?, isDecimalDigit c = true → isAsciiDigit c = true) ∧
      (2 ≤ (namingStem path).length ∨ ∃ c ∈ namingStem path, isLetterOrNumber c = true) ∧
      String.ofList (namingStem path) ∉ keywords := by
  have hlist : (guessPackageName path).toList = led ((namingStem path).map cleaned) := by
    rw [guessPackageName_eq, String.toList_ofList]
  have hblank : guessPackageName path ≠ "_" ↔
      2 ≤ (namingStem path).length ∨ ∃ c ∈ namingStem path, isLetterOrNumber c = true := by
    rw [ne_eq, ← String.toList_inj, hlist, show "_".toList = ['_'] from rfl, led_eq_underscore_iff]
    simp only [not_and_or, not_forall, Nat.not_lt, Bool.not_eq_false, exists_prop]
  rw [← forall_mem_led_iff, ← forall_head_led_iff, ← hlist, ← hblank, ← guess_mem_keywords_iff]
  constructor
  · intro h
    exact ⟨h.all, h.head, h.not_blank, h.not_keyword⟩
  · rintro ⟨hall, hhead, hblank, hkeyword⟩
    have hne : (guessPackageName path).toList ≠ [] := by
      rw [hlist]
      cases (namingStem path).map cleaned with
      | nil => exact List.cons_ne_nil _ _
      | cons c cs =>
        rw [led]
        split <;> exact List.cons_ne_nil _ _
    exact { ne_nil := hne, all := hall, head := hhead, not_blank := hblank, not_keyword := hkeyword }

end Guess

/-- A keyword, the blank identifier, a number that is no decimal digit, and a digit in front. -/
theorem unusable_guesses :
    guessPackageName "example.com/go" = "go" ∧ ¬ IsAliasName "go" ∧
      guessPackageName "example.com/go-" = "_" ∧ ¬ IsAliasName "_" ∧
      guessPackageName "example.com/x²" = "x²" ∧ ¬ IsAliasName "x²" ∧
      guessPackageName "example.com/٣d" = "٣d" ∧ ¬ IsAliasName "٣d" := by
  have hgo : ¬ IsAliasName "go" := fun h => h.not_keyword (by decide)
  have hblank : ¬ IsAliasName "_" := fun h => h.not_blank rfl
  have hnumber : ¬ IsAliasName "x²" := by
    intro h
    have hall := h.all '²' (by decide)
    revert hall
    decide +kernel
  have hdigit : ¬ IsAliasName "٣d" := by
    intro h
    have hhead := h.head '٣' rfl
    revert hhead
    decide +kernel
  exact ⟨by decide +kernel, hgo, by decide +kernel, hblank, by decide +kernel, hnumber,
    by decide +kernel, hdigit⟩

end ResetMethods
