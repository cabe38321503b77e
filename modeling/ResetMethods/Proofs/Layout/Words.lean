import ResetMethods.Layout.Scanner
import ResetMethods.Text.Fresh
import ResetMethods.Text.Letters

/-!
# ResetMethods.Proofs.Layout.Words

Identifiers, and the characters that the scanner of layouts passes over.

* `isWordChar`, `IsWord`: what identifiers are made of.
* `isPlain`: a character that neither opens, closes nor quotes anything.
* `isPlain_of_isWordChar`, `not_isBlank_of_isWordChar`: a character of an identifier is plain and no
  white space.
* `IsWord.fresh`: a name made free by a number is an identifier again.
-/

namespace ResetMethods

open Text

/-- A letter, a digit or an underscore. -/
def isWordChar (c : Char) : Bool := isLetterOrNumber c || c == '_'

/-- The characters of an identifier. -/
structure IsWord (name : String) : Prop where
  ne_nil : name.toList ≠ []
  all : ∀ c ∈ name.toList, isWordChar c = true

theorem isWord_literal {name : String}
    (h : (!name.toList.isEmpty && name.toList.all isWordChar) = true) : IsWord name := by
  simp only [Bool.and_eq_true, Bool.not_eq_true', List.isEmpty_eq_false_iff, List.all_eq_true] at h
  exact ⟨h.1, h.2⟩

/-- A character that means nothing to the scanner. -/
def Layout.isPlain (c : Char) : Bool :=
  c != '/' && c != rawQuote && c != '"' && c != '\'' && !isOpener c && (openerOf? c).isNone &&
    c != '\n'

/-! ## White space -/

def blankCodes : List Nat :=
  [9, 10, 11, 12, 13, 32, 133, 160, 5760, 8192, 8193, 8194, 8195, 8196, 8197, 8198, 8199, 8200,
    8201, 8202, 8232, 8233, 8239, 8287, 12288]

theorem mem_blankCodes {c : Char} (h : isBlank c = true) : c.toNat ∈ blankCodes := by
  simp only [isBlank, Bool.or_eq_true, Bool.and_eq_true, decide_eq_true_eq, beq_iff_eq] at h
  simp only [blankCodes, List.mem_cons, List.not_mem_nil, or_false]
  omega

theorem blankCodes_not_word :
    ∀ n ∈ blankCodes, isWordChar (Char.ofNat n) = false := by
  decide +kernel

theorem not_isBlank_of_isWordChar {c : Char} (h : isWordChar c = true) : isBlank c = false := by
  rw [Bool.eq_false_iff]
  intro hb
  have hw := blankCodes_not_word c.toNat (mem_blankCodes hb)
  rw [Char.ofNat_toNat, h] at hw
  cases hw

/-! ## Plain characters -/

def markers : List Char :=
  ['/', Layout.rawQuote, '"', '\'', '{', '(', '[', '}', ')', ']', '\n']

theorem markers_not_word {c : Char} (h : c ∈ markers) : isWordChar c = false := by
  have hall : markers.all (fun c => !isWordChar c) = true := by decide +kernel
  simpa using List.all_eq_true.1 hall c h

theorem isPlain_of_not_mem {c : Char} (h : c ∉ markers) : Layout.isPlain c = true := by
  simp only [markers, List.mem_cons, List.not_mem_nil, or_false, not_or] at h
  have ho : Layout.openerOf? c = none := by
    unfold Layout.openerOf?
    split <;> simp_all
  simp [Layout.isPlain, Layout.isOpener, ho, h]

theorem isPlain_of_isWordChar {c : Char} (h : isWordChar c = true) : Layout.isPlain c = true := by
  apply isPlain_of_not_mem
  intro hm
  rw [markers_not_word hm] at h
  cases h

/-! ## Fresh names -/

theorem isWordChar_of_isDigit {c : Char} (h : c.isDigit = true) : isWordChar c = true := by
  simp only [Char.isDigit, Bool.and_eq_true, decide_eq_true_eq] at h
  have hlow : '0' ≤ c := h.1
  have hhigh : c ≤ '9' := h.2
  have hnine : c.toNat ≤ '9'.toNat := hhigh
  have hascii : c.toNat < 128 := Nat.lt_of_le_of_lt hnine (by decide)
  simp [isWordChar, isLetterOrNumber, isAsciiDigit, hlow, hhigh, hascii]

theorem IsWord.candidate {base : String} (h : IsWord base) (k : Nat) :
    IsWord (candidate base k) := by
  unfold Text.candidate
  split
  · exact h
  · constructor
    · simp [h.ne_nil]
    · intro c hc
      rw [String.toList_append, List.mem_append] at hc
      obtain hc | hc := hc
      · exact h.all c hc
      · rw [Nat.toString_eq_repr, Nat.toList_repr] at hc
        exact isWordChar_of_isDigit (Nat.isDigit_of_mem_toDigits (by decide) (by decide) hc)

/-- A name made free by a number is an identifier again. -/
theorem IsWord.fresh {base : String} (h : IsWord base) (taken : List String) :
    IsWord (fresh base taken) := by
  unfold Text.fresh
  cases hf : ((List.range (taken.length + 1)).map (Text.candidate base)).find?
      fun name => !taken.contains name with
  | none => exact h
  | some name =>
    obtain ⟨k, -, rfl⟩ := List.mem_map.1 (List.mem_of_find?_eq_some hf)
    exact h.candidate k

end ResetMethods
