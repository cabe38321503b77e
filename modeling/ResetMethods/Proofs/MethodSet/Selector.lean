import Mathlib.Logic.Relation
import ResetMethods.Proofs.Types.Walk
import ResetMethods.Reset.Synthesis

/-!
# ResetMethods.Proofs.MethodSet.Selector

The rule by which a selector `x.Reset` finds what it denotes.

* `Owns`: what a type itself has under the name `Reset`.
* `Candidate`: what it has through embedded fields. The path that leads there is given by the
  numbers of the embedded fields, so its length is the depth.
* `Selects`: the shallowest candidate is the only one at its depth, and it is the method `Reset()`.
* `selectsAt_nil`, `selectsAt_cons`: the rule, one embedding at a time.
-/

namespace ResetMethods

/-- What bears the name `Reset`: the method `Reset()`, or else a field or some other method. -/
inductive Member where
  | reset
  | other
  deriving DecidableEq, Repr

def Member.ofSignature (signature : Signature Ty) : Member :=
  if signature.isNullary then .reset else .other

theorem Member.ofSignature_eq_reset {signature : Signature Ty} :
    ofSignature signature = .reset ↔ signature.isNullary = true := by
  unfold ofSignature
  split <;> simp_all

/-- What an interface asks for under the name `Reset`, itself or through what it embeds. -/
inductive TypeTable.Demands (t : TypeTable) : Ty → Member → Prop where
  | own {ty : Ty} {methods : List (MethodSpec Ty)} {embeds : List Ty} {m : MethodSpec Ty} :
      t.underlying ty = some (.interface methods embeds) → m ∈ methods → m.name = "Reset" →
      Demands t ty (.ofSignature m.signature)
  | embedded {ty e : Ty} {methods : List (MethodSpec Ty)} {embeds : List Ty} {member : Member} :
      t.underlying ty = some (.interface methods embeds) → e ∈ embeds → Demands t e member →
      Demands t ty member

theorem TypeTable.Demands.exists_interface {t : TypeTable} {ty : Ty} {member : Member}
    (h : t.Demands ty member) :
    ∃ methods embeds, t.underlying ty = some (.interface methods embeds) := by
  cases h with
  | own hu => exact ⟨_, _, hu⟩
  | embedded hu => exact ⟨_, _, hu⟩

namespace Surroundings

/-- The types whose members a struct promotes, one for each embedded field. -/
def embeddedTypes (s : Surroundings) (ty : Ty) : List Ty :=
  match s.table.underlying ty with
  | some (.struct fields) => (fields.filter (·.embedded)).filterMap fun f => s.promotedFrom f.type
  | _ => []

/-- What a type itself has under the name `Reset`. A pending type counts as declaring `Reset()`. No
method can be declared on an interface. -/
inductive Owns (s : Surroundings) (ty : Ty) : Member → Prop where
  | pending {d : Declaration} :
      s.table.declaration ty = some d → s.isInterface ty = false → d.key ∈ s.pending →
      Owns s ty .reset
  | method {d : Declaration} {m : Method} :
      s.table.declaration ty = some d → s.isInterface ty = false → m ∈ d.methods →
      m.name = "Reset" → Owns s ty (.ofSignature m.signature)
  | field {fields : List (Field Ty)} {f : Field Ty} :
      s.table.underlying ty = some (.struct fields) → f ∈ fields → f.name = "Reset" →
      Owns s ty .other
  | demanded {member : Member} : s.table.Demands ty member → Owns s ty member

/-- What a type has under the name `Reset`, with the embedded fields that lead there. -/
inductive Candidate (s : Surroundings) : Ty → List Nat → Member → Prop where
  | own {ty : Ty} {member : Member} : s.Owns ty member → Candidate s ty [] member
  | promoted {ty inner : Ty} {i : Nat} {path : List Nat} {member : Member} :
      (s.embeddedTypes ty)[i]? = some inner → Candidate s inner path member →
      Candidate s ty (i :: path) member

/-- The method `Reset()` stands at the end of the path, and there is nothing else of that name that
is as shallow. -/
structure SelectsAt (s : Surroundings) (ty : Ty) (path : List Nat) : Prop where
  candidate : s.Candidate ty path .reset
  only : ∀ {path' : List Nat} {member : Member}, s.Candidate ty path' member →
    path'.length ≤ path.length → path' = path ∧ member = .reset

/-- A selector for `Reset` denotes the method `Reset()`. -/
def Selects (s : Surroundings) (ty : Ty) : Prop := ∃ path, s.SelectsAt ty path

/-- Nothing at depth `n` or less bears the name in any embedded field but number `i`. -/
def NoRival (s : Surroundings) (ty : Ty) (i n : Nat) : Prop :=
  ∀ {j : Nat} {inner : Ty} {path : List Nat} {member : Member}, j ≠ i →
    (s.embeddedTypes ty)[j]? = some inner → s.Candidate inner path member → n < path.length

variable {s : Surroundings} {ty inner : Ty} {i : Nat} {path path' : List Nat} {member : Member}

theorem candidate_nil : s.Candidate ty [] member ↔ s.Owns ty member := by
  constructor
  · intro h
    cases h with
    | own h => exact h
  · exact .own

theorem candidate_cons : s.Candidate ty (i :: path) member ↔
    ∃ inner, (s.embeddedTypes ty)[i]? = some inner ∧ s.Candidate inner path member := by
  constructor
  · intro h
    cases h with
    | promoted hi hc => exact ⟨_, hi, hc⟩
  · rintro ⟨inner, hi, hc⟩
    exact .promoted hi hc

/-- A path that is selected is the only one. -/
theorem SelectsAt.unique (h : s.SelectsAt ty path) (h' : s.SelectsAt ty path') : path = path' := by
  by_cases hl : path.length ≤ path'.length
  · exact (h'.only h.candidate hl).1
  · exact ((h.only h'.candidate (by omega)).1).symm

theorem selectsAt_nil : s.SelectsAt ty [] ↔ s.Owns ty .reset ∧ ¬ s.Owns ty .other := by
  constructor
  · intro h
    refine ⟨candidate_nil.1 h.candidate, fun ho => ?_⟩
    have hm := (h.only (.own ho) (Nat.le_refl 0)).2
    cases hm
  · rintro ⟨hr, ho⟩
    refine ⟨.own hr, fun {path' member} hc hl => ?_⟩
    obtain rfl := List.length_eq_zero_iff.1 (Nat.le_zero.1 hl)
    cases member with
    | reset => exact ⟨rfl, rfl⟩
    | other => exact absurd (candidate_nil.1 hc) ho

/-- What an embedded field selects is promoted if the type itself has nothing of that name and no
other embedded field has anything as shallow. -/
theorem selectsAt_cons : s.SelectsAt ty (i :: path) ↔
    (∀ member, ¬ s.Owns ty member) ∧
      ∃ inner, (s.embeddedTypes ty)[i]? = some inner ∧ s.SelectsAt inner path ∧
        s.NoRival ty i path.length := by
  constructor
  · intro h
    obtain ⟨inner, hi, hc⟩ := candidate_cons.1 h.candidate
    refine ⟨fun member ho => ?_, inner, hi, ⟨hc, fun {path' member} hc' hl => ?_⟩, ?_⟩
    · have hp := (h.only (.own ho) (Nat.zero_le _)).1
      cases hp
    · have ho := h.only (.promoted hi hc') (by simpa using hl)
      simpa using ho
    · intro j inner' path' member hj hi' hc'
      by_cases hl : path.length < path'.length
      · exact hl
      · have hp := (h.only (.promoted hi' hc') (by simp only [List.length_cons]; omega)).1
        simp only [List.cons.injEq] at hp
        exact absurd hp.1 hj
  · rintro ⟨hown, inner, hi, hs, hr⟩
    refine ⟨.promoted hi hs.candidate, fun {path' member} hc hl => ?_⟩
    cases hc with
    | own ho => exact absurd ho (hown _)
    | @promoted _ inner' j path' _ hj hc =>
      have hle : path'.length ≤ path.length := by simpa using hl
      by_cases hij : j = i
      · subst hij
        rw [hi] at hj; cases hj
        have ho := hs.only hc hle
        exact ⟨by rw [ho.1], ho.2⟩
      · have hlt := hr hij hj hc
        omega

/-- A selected method is the type's own or promoted by one embedded field. -/
theorem selects_iff : s.Selects ty ↔ s.Owns ty .reset ∧ ¬ s.Owns ty .other ∨
    (∀ member, ¬ s.Owns ty member) ∧ ∃ i inner path, (s.embeddedTypes ty)[i]? = some inner ∧
      s.SelectsAt inner path ∧ s.NoRival ty i path.length := by
  constructor
  · rintro ⟨path, h⟩
    cases path with
    | nil => exact .inl (selectsAt_nil.1 h)
    | cons i path =>
      obtain ⟨hown, inner, hi, hs, hr⟩ := selectsAt_cons.1 h
      exact .inr ⟨hown, i, inner, path, hi, hs, hr⟩
  · rintro (h | ⟨hown, i, inner, path, hi, hs, hr⟩)
    · exact ⟨[], selectsAt_nil.2 h⟩
    · exact ⟨i :: path, selectsAt_cons.2 ⟨hown, inner, hi, hs, hr⟩⟩

end Surroundings
end ResetMethods
