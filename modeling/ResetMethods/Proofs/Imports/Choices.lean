import ResetMethods.Proofs.Imports.History

/-!
# ResetMethods.Proofs.Imports.Choices

The aliases of a file by the names of its packages.

* `firstOfEach`: some packages without those of a path that was there before.
* `Viewpoint.Covers`: the paths that a table binds, and the one that needs no alias.
* `Viewpoint.NumberedTo`: a package of another name is numbered to a given name.
* `Viewpoint.path?_bindAll_eq_none_iff`: a name is no alias exactly when no package is called like
  it, and none is numbered to it.
* `Viewpoint.path?_bindAll_of_digitless`: a name without a digit at its end is the alias of the first
  package that is called like it.
-/

namespace ResetMethods

open Text (candidate fresh)

/-! ## Numbers -/

namespace Text

def EndsInDigit (name : String) : Prop := name.toList.getLast?.any Char.isDigit = true

instance (name : String) : Decidable (EndsInDigit name) :=
  inferInstanceAs (Decidable (name.toList.getLast?.any Char.isDigit = true))

theorem endsInDigit_candidate (base : String) {k : Nat} (hk : 0 < k) :
    EndsInDigit (candidate base k) := by
  have hdigits : (Nat.toDigits 10 k) ≠ [] := Nat.toDigits_ne_nil
  rw [EndsInDigit, candidate, if_neg (by omega), String.toList_append, Nat.toString_eq_repr,
    Nat.toList_repr, List.getLast?_append_of_ne_nil _ hdigits, List.getLast?_eq_some_getLast hdigits,
    Option.any_some]
  exact Nat.isDigit_of_mem_toDigits (by decide) (by decide) (List.getLast_mem hdigits)

theorem fresh_of_not_mem {base : String} {taken : List String} (h : base ∉ taken) :
    fresh base taken = base := by
  obtain ⟨k, hk, -, hbefore⟩ := fresh_spec base taken
  have hzero : candidate base 0 = base := if_pos rfl
  rcases Nat.eq_zero_or_pos k with rfl | hpos
  · rw [hk, hzero]
  · exact absurd (hzero ▸ hbefore 0 hpos) h

/-- A name that does not end in a digit is found for itself only. -/
theorem eq_of_fresh_eq {base name : String} {taken : List String} (hd : ¬ EndsInDigit name)
    (h : fresh base taken = name) : base = name := by
  obtain ⟨k, hk, -, -⟩ := fresh_spec base taken
  rcases Nat.eq_zero_or_pos k with rfl | hpos
  · rw [← h, hk]
    rfl
  · rw [h] at hk
    exact absurd (hk ▸ endsInDigit_candidate base hpos) hd

end Text

/-! ## Packages in order -/

/-- The packages whose paths are not among some paths that have been seen, the first of each path. -/
def firstOfEach (seen : List String) : List PackageRef → List PackageRef
  | [] => []
  | p :: rest =>
    if p.path ∈ seen then firstOfEach seen rest else p :: firstOfEach (p.path :: seen) rest

namespace Viewpoint

/-- The paths are the local one and those that have an alias. -/
def Covers (v : Viewpoint) (t : AliasTable) (seen : List String) : Prop :=
  ∀ path, path ∈ seen ↔ path = v.localPath ∨ ∃ b ∈ t.bindings, b.path = path

/-- A package of another name gets the name by a number, when the aliases of the packages before it
have been bound. -/
def NumberedTo (v : Viewpoint) (t : AliasTable) (packages : List PackageRef) (name : String) : Prop :=
  ∃ before p after, packages = before ++ p :: after ∧ p.name ≠ name ∧
    fresh p.name (v.bindAll t before).taken = name

variable {v : Viewpoint} {t : AliasTable} {seen : List String} {p : PackageRef} {name : String}

theorem covers_withReserved (v : Viewpoint) (reserved : List String) :
    v.Covers (.withReserved reserved) [v.localPath] := by
  intro path
  simp [AliasTable.withReserved]

theorem numberedTo_cons {packages : List PackageRef} :
    v.NumberedTo t (p :: packages) name ↔
      (p.name ≠ name ∧ fresh p.name t.taken = name) ∨ v.NumberedTo (v.bind t p) packages name := by
  constructor
  · rintro ⟨before, q, after, heq, hne, hfresh⟩
    cases before with
    | nil =>
      obtain ⟨rfl, rfl⟩ := List.cons.inj heq
      exact .inl ⟨hne, hfresh⟩
    | cons first before =>
      obtain ⟨rfl, rfl⟩ := List.cons.inj heq
      exact .inr ⟨before, q, after, rfl, hne, hfresh⟩
  · rintro (⟨hne, hfresh⟩ | ⟨before, q, after, rfl, hne, hfresh⟩)
    · exact ⟨[], p, packages, rfl, hne, hfresh⟩
    · exact ⟨p :: before, q, after, rfl, hne, hfresh⟩

namespace Covers

theorem bind_of_mem (hc : v.Covers t seen) (hp : p.path ∈ seen) : v.bind t p = t := by
  unfold Viewpoint.bind
  split
  · rfl
  · rename_i hlocal
    obtain hlocal' | ⟨b, hb, hpath⟩ := (hc p.path).1 hp
    · exact absurd hlocal' (by simpa using hlocal)
    · obtain ⟨hsame, -⟩ | ⟨-, -, hnone⟩ := AliasTable.bind_cases t p (v.knowsName p)
      · exact hsame
      · exact absurd hpath (hnone b hb)

theorem bindings_bind (hc : v.Covers t seen) (hp : p.path ∉ seen) :
    (v.bind t p).bindings =
      t.bindings ++ [⟨fresh p.name t.taken, p.path, v.knowsName p⟩] := by
  obtain ⟨hlocal, hnone⟩ := not_or.1 (mt (hc p.path).2 hp)
  rw [Viewpoint.bind, if_neg (by simpa using hlocal)]
  obtain ⟨-, hb⟩ | ⟨-, hnew, -⟩ := AliasTable.bind_cases t p (v.knowsName p)
  · exact absurd hb hnone
  · exact hnew

theorem bind (hc : v.Covers t seen) (hp : p.path ∉ seen) :
    v.Covers (v.bind t p) (p.path :: seen) := by
  intro path
  rw [List.mem_cons, hc path, hc.bindings_bind hp]
  simp only [List.mem_append, List.mem_singleton, or_and_right, exists_or, exists_eq_left]
  constructor
  · rintro (rfl | hlocal | hb)
    · exact .inr (.inr rfl)
    · exact .inl hlocal
    · exact .inr (.inl hb)
  · rintro (hlocal | hb | rfl)
    · exact .inr (.inl hlocal)
    · exact .inr (.inr hb)
    · exact .inl rfl

theorem path?_bind (hc : v.Covers t seen) (hp : p.path ∉ seen) (name : String) :
    (v.bind t p).path? name =
      (t.path? name).or (if fresh p.name t.taken = name then some p.path else none) := by
  rw [AliasTable.path?, hc.bindings_bind hp, List.find?_append, AliasTable.path?]
  cases t.bindings.find? (·.aliasName == name) with
  | some b => rfl
  | none =>
    by_cases hfresh : fresh p.name t.taken = name
    · simp [hfresh]
    · simp [hfresh]

end Covers

theorem reserved_bind (v : Viewpoint) (t : AliasTable) (p : PackageRef) :
    (v.bind t p).reserved = t.reserved := by
  unfold bind
  split
  · rfl
  · exact t.reserved_bind p _

/-! ## Names of a file -/

theorem fresh_of_free (hname : name ∉ t.reserved) (hfree : t.path? name = none)
    (heq : p.name = name) : fresh p.name t.taken = name := by
  rw [heq]
  exact Text.fresh_of_not_mem (AliasTable.isFree_iff.1 ⟨hname, hfree⟩)

/-- Of the names that are not reserved, the aliases are those that packages are called or numbered
to. -/
theorem path?_bindAll_eq_none_iff (hc : v.Covers t seen) (hname : name ∉ t.reserved)
    (packages : List PackageRef) :
    (v.bindAll t packages).path? name = none ↔
      t.path? name = none ∧ (∀ p ∈ firstOfEach seen packages, p.name ≠ name) ∧
        ¬ v.NumberedTo t (firstOfEach seen packages) name := by
  induction packages generalizing t seen with
  | nil => simp [bindAll, firstOfEach, NumberedTo]
  | cons p rest ih =>
    have hstep : v.bindAll t (p :: rest) = v.bindAll (v.bind t p) rest := rfl
    rw [hstep]
    by_cases hp : p.path ∈ seen
    · rw [hc.bind_of_mem hp, firstOfEach, if_pos hp]
      exact ih hc hname
    · have hreserved : name ∉ (v.bind t p).reserved := by rwa [reserved_bind]
      rw [ih (hc.bind hp) hreserved, firstOfEach, if_neg hp, numberedTo_cons, List.forall_mem_cons,
        hc.path?_bind hp, Option.or_eq_none_iff]
      by_cases hfree : t.path? name = none
      · by_cases heq : p.name = name
        · have hfresh := fresh_of_free hname hfree heq
          rw [heq] at hfresh
          simp [heq, hfresh]
        · by_cases hfresh : fresh p.name t.taken = name
          · simp [hfresh, heq]
          · simp [hfresh, heq, hfree]
      · simp [hfree]

/-- A name that is not reserved and does not end in a digit is the alias of the first package that is
called like it. -/
theorem path?_bindAll_of_digitless (hc : v.Covers t seen) (hname : name ∉ t.reserved)
    (hd : ¬ Text.EndsInDigit name) (packages : List PackageRef) :
    (v.bindAll t packages).path? name =
      (t.path? name).or (((firstOfEach seen packages).find? (·.name == name)).map (·.path)) := by
  induction packages generalizing t seen with
  | nil => simp [bindAll, firstOfEach]
  | cons p rest ih =>
    have hstep : v.bindAll t (p :: rest) = v.bindAll (v.bind t p) rest := rfl
    rw [hstep]
    by_cases hp : p.path ∈ seen
    · rw [hc.bind_of_mem hp, firstOfEach, if_pos hp]
      exact ih hc hname
    · have hreserved : name ∉ (v.bind t p).reserved := by rwa [reserved_bind]
      rw [ih (hc.bind hp) hreserved, firstOfEach, if_neg hp, hc.path?_bind hp, Option.or_assoc,
        List.find?_cons]
      cases hfree : t.path? name with
      | some path => rfl
      | none =>
        by_cases heq : p.name = name
        · have hfresh := fresh_of_free hname hfree heq
          rw [if_pos hfresh, beq_iff_eq.2 heq]
          rfl
        · have hne : fresh p.name t.taken ≠ name := fun h => heq (Text.eq_of_fresh_eq hd h)
          rw [if_neg hne, beq_eq_false_iff_ne.2 heq]
          rfl

end Viewpoint

end ResetMethods
