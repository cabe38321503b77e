import ResetMethods.Generation
import ResetMethods.Proofs.Types.Written

/-!
# ResetMethods.Proofs.Printing.Occurrences

Where the types that a method spells were written.

* `Occurrence`: a type with the declaration in whose right-hand side it is written.
* `TypeTable.literal`, `TypeTable.bare`: the walks along right-hand sides, on occurrences.
* `Surroundings.spelledWithin`: the occurrence that the statement for an operand spells.
* `LoadedPackage.spelled`: the occurrences that the methods of a package spell (`types_methods`).
* `Declaration.Exposes`: the types of a right-hand side that a method may spell.
* `LoadedPackage.spelled_exposed`, `LoadedPackage.spelled_written`: every occurrence that is spelled is
  such a type of a declaration, and the declaration is written in a file of the load.
-/

namespace ResetMethods

/-- A type, and the declaration in whose right-hand side it is written. -/
structure Occurrence where
  declaration : Declaration
  type : Ty

def Declaration.whole (d : Declaration) : Occurrence := ⟨d, d.rhs⟩

def Occurrence.IsDeclared (t : TypeTable) (o : Occurrence) : Prop :=
  ∃ n, t.lookup n = some o.declaration

/-! ## Walks -/

namespace TypeTable

/-- Follows declarations as `underlyingWithin` does. -/
def literalWithin (t : TypeTable) : Nat → Occurrence → Option Occurrence
  | 0, _ => none
  | fuel + 1, ⟨d, ty⟩ =>
    match ty with
    | .named n =>
      match t.lookup n with
      | some next => t.literalWithin fuel next.whole
      | none => none
    | _ => some ⟨d, ty⟩

def literal (t : TypeTable) (o : Occurrence) : Option Occurrence := t.literalWithin chainLimit o

/-- Follows aliases as `unaliasWithin` does. -/
def bareWithin (t : TypeTable) : Nat → Occurrence → Option Occurrence
  | 0, _ => none
  | fuel + 1, ⟨d, ty⟩ =>
    match ty with
    | .named n =>
      match t.lookup n with
      | some next => if next.isAlias then t.bareWithin fuel next.whole else some ⟨d, ty⟩
      | none => some ⟨d, ty⟩
    | _ => some ⟨d, ty⟩

def bare (t : TypeTable) (o : Occurrence) : Option Occurrence := t.bareWithin chainLimit o

variable {t : TypeTable} {o o' : Occurrence}

theorem type_literalWithin (t : TypeTable) (fuel : Nat) (o : Occurrence) :
    (t.literalWithin fuel o).map (·.type) = t.underlyingWithin fuel o.type := by
  induction fuel generalizing o with
  | zero => rfl
  | succ fuel ih =>
    obtain ⟨d, ty⟩ := o
    cases ty with
    | named n =>
      simp only [literalWithin, underlyingWithin]
      cases t.lookup n with
      | none => rfl
      | some next => exact ih next.whole
    | _ => rfl

theorem type_literal (t : TypeTable) (o : Occurrence) :
    (t.literal o).map (·.type) = t.underlying o.type := type_literalWithin t _ o

theorem type_bareWithin (t : TypeTable) (fuel : Nat) (o : Occurrence) :
    (t.bareWithin fuel o).map (·.type) = t.unaliasWithin fuel o.type := by
  induction fuel generalizing o with
  | zero => rfl
  | succ fuel ih =>
    obtain ⟨d, ty⟩ := o
    cases ty with
    | named n =>
      simp only [bareWithin, unaliasWithin]
      cases t.lookup n with
      | none => rfl
      | some next =>
        simp only
        split
        · exact ih next.whole
        · rfl
    | _ => rfl

theorem type_bare (t : TypeTable) (o : Occurrence) :
    (t.bare o).map (·.type) = t.unalias o.type := type_bareWithin t _ o

/-- A walk to a type literal stays where it is, or ends at the right-hand side of a declaration. -/
theorem literalWithin_cases {fuel : Nat} (h : t.literalWithin fuel o = some o') :
    o' = o ∨ o'.IsDeclared t ∧ o'.type = o'.declaration.rhs := by
  induction fuel generalizing o with
  | zero => cases h
  | succ fuel ih =>
    obtain ⟨d, ty⟩ := o
    cases ty with
    | named n =>
      simp only [literalWithin] at h
      cases hl : t.lookup n with
      | none =>
        rw [hl] at h
        cases h
      | some next =>
        rw [hl] at h
        rcases ih h with rfl | hlater
        · exact .inr ⟨⟨n, hl⟩, rfl⟩
        · exact .inr hlater
    | _ => exact .inl (Option.some.inj h).symm

/-- A walk along aliases stays where it is, or ends at the right-hand side of one. -/
theorem bareWithin_cases {fuel : Nat} (h : t.bareWithin fuel o = some o') :
    o' = o ∨ o'.IsDeclared t ∧ o'.declaration.isAlias = true ∧ o'.type = o'.declaration.rhs := by
  induction fuel generalizing o with
  | zero => cases h
  | succ fuel ih =>
    obtain ⟨d, ty⟩ := o
    cases ty with
    | named n =>
      simp only [bareWithin] at h
      cases hl : t.lookup n with
      | none =>
        rw [hl] at h
        exact .inl (Option.some.inj h).symm
      | some next =>
        simp only [hl] at h
        split at h
        · rename_i halias
          rcases ih h with rfl | hlater
          · exact .inr ⟨⟨n, hl⟩, halias, rfl⟩
          · exact .inr hlater
        · exact .inl (Option.some.inj h).symm
    | _ => exact .inl (Option.some.inj h).symm

/-- From a right-hand side, a walk to a type literal ends at a right-hand side. -/
theorem literal_whole {n : Named Ty} {d : Declaration} (hd : t.lookup n = some d)
    (h : t.literal d.whole = some o) : o.IsDeclared t ∧ o.type = o.declaration.rhs := by
  rcases literalWithin_cases h with rfl | hlater
  · exact ⟨⟨n, hd⟩, rfl⟩
  · exact hlater

end TypeTable

/-! ## What a statement spells -/

namespace Surroundings

/-- The occurrence that the statement for an operand spells, if it spells a type. -/
def spelledWithin (s : Surroundings) : Nat → Occurrence → Option Occurrence
  | fuel, o =>
    match s.table.literal o with
    | none =>
      match s.table.bare o with
      | some ⟨d, .named n⟩ => some ⟨d, .named n⟩
      | _ => none
    | some ⟨d, shape⟩ =>
      match fuel with
      | 0 => some o
      | fuel + 1 =>
        match shape with
        | .pointer elem =>
          if !s.isInterface elem && s.hasReset elem then none else s.spelledWithin fuel ⟨d, elem⟩
        | .struct _ => if s.hasReset o.type then none else some o
        | .array _ _ | .typeParam _ | .named _ => some o
        | .slice _ | .map _ _ | .interface _ _ | .basic _ | .channel _ _ | .function _ => none

def spelled (s : Surroundings) (o : Occurrence) : Option Occurrence :=
  s.spelledWithin (depthLimit + 1) o

variable {s : Surroundings} {o o' : Occurrence}

theorem types_resetUnresolved (h : s.table.literal o = none) (fuel : Nat) (e : Operand) :
    (s.resetUnresolved e o.type).types = ((s.spelledWithin fuel o).map (·.type)).toList := by
  rw [spelledWithin, h, resetUnresolved, ← s.table.type_bare]
  cases s.table.bare o with
  | none => rfl
  | some bare =>
    obtain ⟨d, ty⟩ := bare
    cases ty <;> rfl

/-- The statement for an operand spells the type of that occurrence and no other. -/
theorem types_resetWithin (s : Surroundings) (fuel : Nat) (e : Operand) (o : Occurrence) :
    (s.resetWithin fuel e o.type).types = ((s.spelledWithin fuel o).map (·.type)).toList := by
  induction fuel generalizing e o with
  | zero =>
    have hu := s.table.type_literal o
    rw [resetWithin, ← hu]
    cases hl : s.table.literal o with
    | none => exact types_resetUnresolved hl 0 e
    | some shape =>
      rw [spelledWithin, hl]
      rfl
  | succ fuel ih =>
    have hu := s.table.type_literal o
    rw [resetWithin, ← hu]
    cases hl : s.table.literal o with
    | none => exact types_resetUnresolved hl (fuel + 1) e
    | some shape =>
      rw [spelledWithin, hl]
      obtain ⟨d, ty⟩ := shape
      cases ty with
      | pointer elem =>
        simp only [Option.map_some, Statement.types]
        split
        · rfl
        · exact ih e.target ⟨d, elem⟩
      | struct fields =>
        simp only [Option.map_some]
        split <;> rfl
      | interface methods embeds =>
        simp only [Option.map_some, Statement.types]
        split <;> rfl
      | _ => rfl

end Surroundings

/-! ## What the methods of a package spell -/

def ResetMethod.types (m : ResetMethod) : List Ty := m.body.flatMap Statement.types

def ResetMethod.spelled (s : Surroundings) (n : Named Ty) : List Occurrence :=
  match s.table.lookup n with
  | none => []
  | some d =>
    if d.isAlias then []
    else
      match s.table.literal d.whole with
      | some ⟨owner, .struct fields⟩ =>
        (fields.filter (Field.isIncluded d.key.package)).flatMap fun f =>
          (s.spelled ⟨owner, f.type⟩).toList
      | _ => []

theorem ResetMethod.types_of? (s : Surroundings) (receiver : String) (n : Named Ty) :
    (of? s receiver n).toList.flatMap types = (spelled s n).map (·.type) := by
  unfold of? spelled
  cases s.table.lookup n with
  | none => rfl
  | some d =>
    simp only
    split
    · rfl
    · have hu := s.table.type_literal d.whole
      rw [show d.whole.type = d.rhs from rfl] at hu
      rw [← hu]
      cases s.table.literal d.whole with
      | none => rfl
      | some shape =>
        obtain ⟨owner, ty⟩ := shape
        cases ty with
        | struct fields =>
          simp only [Option.map_some, Option.toList_some, List.flatMap_singleton, types,
            List.map_flatMap, List.flatMap_map]
          refine List.flatMap_congr fun f _ => ?_
          rw [Surroundings.reset, s.types_resetWithin _ _ ⟨owner, f.type⟩, Surroundings.spelled]
          cases s.spelledWithin (depthLimit + 1) ⟨owner, f.type⟩ <;> rfl
        | _ => rfl

namespace LoadedPackage

/-- The occurrences that the methods of the package spell. -/
def spelled (package : LoadedPackage) (s : Surroundings) : List Occurrence :=
  package.targets.flatMap fun target =>
    match package.definitions.type? target.name with
    | none => []
    | some named => ResetMethod.spelled s named

/-- The methods of a package spell the types of these occurrences, in this order. -/
theorem types_methods (package : LoadedPackage) (s : Surroundings) :
    (package.methods s).flatMap (·.types) = (package.spelled s).map (·.type) := by
  unfold methods outcomes spelled
  induction package.targets with
  | nil => rfl
  | cons target rest ih =>
    rw [List.flatMap_cons, List.map_append, ← ih, List.map_cons, outcome]
    cases package.definitions.type? target.name with
    | none => rfl
    | some named =>
      have htypes := ResetMethod.types_of? s package.receiver named
      simp only
      rw [← htypes]
      cases ResetMethod.of? s package.receiver named with
      | none => rfl
      | some m => simp

end LoadedPackage

/-! ## Where they are written -/

/-- The types of a right-hand side that a method may spell: those of the fields of a struct, what a
pointer points to, and what an alias stands for. -/
inductive Declaration.Exposes (d : Declaration) : Ty → Prop where
  | field {fields : List (Field Ty)} {f : Field Ty} : d.rhs = .struct fields → f ∈ fields →
      Exposes d f.type
  | pointer {elem : Ty} : d.rhs = .pointer elem → Exposes d elem
  | aliased : d.isAlias = true → Exposes d d.rhs
  | target {elem : Ty} : Exposes d (.pointer elem) → Exposes d elem

namespace Declaration

variable {d : Declaration} {ty : Ty}

theorem Exposes.mentions (h : d.Exposes ty) : d.rhs.Mentions ty := by
  induction h with
  | field hrhs hf =>
    rw [hrhs]
    exact .single (List.mem_map_of_mem hf)
  | pointer hrhs =>
    rw [hrhs]
    exact .single List.mem_cons_self
  | aliased => exact .refl _
  | target _ ih => exact ih.tail List.mem_cons_self

/-- The predeclared `error` is an interface and no alias. -/
theorem not_exposes_error (h : { d with methods := [] } = Declaration.error) : ¬ d.Exposes ty := by
  have hrhs := congrArg Declaration.rhs h
  have halias := congrArg Declaration.isAlias h
  intro hexposes
  induction hexposes with
  | field hstruct => cases hrhs.symm.trans hstruct
  | pointer hpointer => cases hrhs.symm.trans hpointer
  | aliased htrue => cases halias.symm.trans htrue
  | target _ ih => exact ih

end Declaration

structure Occurrence.IsExposed (t : TypeTable) (o : Occurrence) : Prop where
  declared : o.IsDeclared t
  exposes : o.declaration.Exposes o.type

section Exposed

variable {s : Surroundings} {t : TypeTable} {o o' : Occurrence} {d : Declaration}

theorem TypeTable.exposed_target {elem : Ty} (ho : o.IsExposed t)
    (h : t.literal o = some ⟨d, .pointer elem⟩) : Occurrence.IsExposed t ⟨d, elem⟩ := by
  rcases literalWithin_cases h with rfl | ⟨hdeclared, hrhs⟩
  · exact ⟨ho.declared, .target ho.exposes⟩
  · exact ⟨hdeclared, .pointer hrhs.symm⟩

theorem TypeTable.exposed_bare (ho : o.IsExposed t) (h : t.bare o = some o') : o'.IsExposed t := by
  rcases bareWithin_cases h with rfl | ⟨hdeclared, halias, hrhs⟩
  · exact ho
  · exact ⟨hdeclared, hrhs ▸ .aliased halias⟩

theorem Surroundings.bare_of_spelledWithin {fuel : Nat} (hl : s.table.literal o = none)
    (h : s.spelledWithin fuel o = some o') : s.table.bare o = some o' := by
  rw [spelledWithin, hl] at h
  cases hb : s.table.bare o with
  | none =>
    rw [hb] at h
    cases h
  | some bare =>
    rw [hb] at h
    obtain ⟨d, ty⟩ := bare
    cases ty <;> first | exact h | cases h

theorem Surroundings.spelledWithin_exposed {fuel : Nat} (ho : o.IsExposed s.table)
    (h : s.spelledWithin fuel o = some o') : o'.IsExposed s.table := by
  induction fuel generalizing o with
  | zero =>
    cases hl : s.table.literal o with
    | none => exact TypeTable.exposed_bare ho (bare_of_spelledWithin hl h)
    | some shape =>
      rw [spelledWithin, hl] at h
      exact Option.some.inj h ▸ ho
  | succ fuel ih =>
    cases hl : s.table.literal o with
    | none => exact TypeTable.exposed_bare ho (bare_of_spelledWithin hl h)
    | some shape =>
      obtain ⟨d, ty⟩ := shape
      rw [spelledWithin, hl] at h
      -- only a pointer leads away from the occurrence
      cases ty with
      | pointer elem =>
        simp only at h
        split at h
        · cases h
        · exact ih (TypeTable.exposed_target ho hl) h
      | struct fields =>
        simp only at h
        split at h
        · cases h
        · exact Option.some.inj h ▸ ho
      | array length elem => exact Option.some.inj h ▸ ho
      | typeParam name => exact Option.some.inj h ▸ ho
      | named name => exact Option.some.inj h ▸ ho
      | _ => cases h

theorem ResetMethod.spelled_exposed {n : Named Ty} (h : o ∈ spelled s n) : o.IsExposed s.table := by
  unfold spelled at h
  split at h
  · cases h
  · rename_i d hd
    split at h
    · cases h
    · split at h
      · rename_i owner fields hl
        obtain ⟨f, hf, h⟩ := List.mem_flatMap.1 h
        obtain ⟨hdeclared, hrhs⟩ := TypeTable.literal_whole hd hl
        have hfield : Occurrence.IsExposed s.table ⟨owner, f.type⟩ :=
          ⟨hdeclared, .field hrhs.symm (List.mem_of_mem_filter hf)⟩
        exact Surroundings.spelledWithin_exposed hfield (Option.mem_toList.1 h)
      · cases h

theorem LoadedPackage.spelled_exposed {package : LoadedPackage} (h : o ∈ package.spelled s) :
    o.IsExposed s.table := by
  obtain ⟨target, -, h⟩ := List.mem_flatMap.1 h
  cases hn : package.definitions.type? target.name with
  | none =>
    rw [hn] at h
    cases h
  | some named =>
    rw [hn] at h
    exact ResetMethod.spelled_exposed h

theorem LoadedPackage.mentions_of_spelled {package : LoadedPackage} (h : o ∈ package.spelled s) :
    o.declaration.rhs.Mentions o.type :=
  (spelled_exposed h).exposes.mentions

/-- What the methods of a package spell is written in the files of the load. -/
theorem LoadedPackage.spelled_written {sources : List SourcePackage} {package : LoadedPackage}
    (h : o ∈ package.spelled (Load.ofSources sources).surroundings) :
    ∃ source file spec, o.declaration.IsWritten sources source file spec := by
  have ho := spelled_exposed h
  obtain ⟨n, hn⟩ := ho.declared
  rcases typeTable_cases hn with hwritten | herror
  · exact hwritten
  · exact absurd ho.exposes (Declaration.not_exposes_error herror)

end Exposed

end ResetMethods
