import ResetMethods.Proofs.Layout.Methods
import ResetMethods.Proofs.Types.Walk

/-!
# ResetMethods.Proofs.Layout.Printed

What a method prints comes from the declarations of the load.

* `TypeTable.Declares`: all atoms of the declared right-hand sides have a property. The walks along
  right-hand sides keep it (`underlyingWithin_atoms`, `unaliasWithin_atoms`).
* `Statement.Concerns`: a statement works on one field, and the types that it spells are made of
  atoms with a property. So is the statement for an operand (`concerns_resetWithin`).
* `ResetMethod.exists_declaration`: a method and the declaration that it is made for.
* `package_mem_atoms`: the packages that a type names are among its atoms.
-/

namespace ResetMethods

theorem Dict.mem_values_of_get? {κ ν : Type} [Ord κ] [DecidableEq κ] {d : Dict κ ν} {k : κ} {v : ν}
    (h : d.get? k = some v) : v ∈ d.values := by
  obtain ⟨before, behind, he, -⟩ := List.lookup_eq_some_iff.1 h
  rw [values, he]
  simp

/-! ## Walks -/

namespace TypeTable

/-- What every declared right-hand side is made of. -/
def Declares (t : TypeTable) (P : Atom → Prop) : Prop := ∀ d ∈ t.values, ∀ a ∈ d.rhs.atoms, P a

variable {t : TypeTable} {P : Atom → Prop} {ty u : Ty}

theorem underlyingWithin_atoms (ht : t.Declares P) {fuel : Nat} (hty : ∀ a ∈ ty.atoms, P a)
    (h : t.underlyingWithin fuel ty = some u) : ∀ a ∈ u.atoms, P a := by
  induction fuel generalizing ty with
  | zero => simp [underlyingWithin] at h
  | succ fuel ih =>
    cases ty with
    | named n =>
      simp only [underlyingWithin] at h
      cases hl : t.lookup n with
      | none => simp [hl] at h
      | some d =>
        rw [hl] at h
        exact ih (ht d (Dict.mem_values_of_get? hl)) h
    | _ =>
      cases h
      exact hty

theorem unaliasWithin_atoms (ht : t.Declares P) {fuel : Nat} (hty : ∀ a ∈ ty.atoms, P a)
    (h : t.unaliasWithin fuel ty = some u) : ∀ a ∈ u.atoms, P a := by
  induction fuel generalizing ty with
  | zero => simp [unaliasWithin] at h
  | succ fuel ih =>
    cases ty with
    | named n =>
      simp only [unaliasWithin] at h
      cases hl : t.lookup n with
      | none =>
        rw [hl] at h
        cases h
        exact hty
      | some d =>
        simp only [hl] at h
        split at h
        · exact ih (ht d (Dict.mem_values_of_get? hl)) h
        · cases h
          exact hty
    | _ =>
      cases h
      exact hty

end TypeTable

/-! ## Statements -/

namespace Statement

/-- A statement for the field of `e`, that spells types made of certain atoms. -/
structure Concerns (P : Atom → Prop) (e : Operand) (st : Statement) : Prop where
  operands : ∀ o ∈ st.operands, o.receiver = e.receiver ∧ o.field = e.field
  types : ∀ ty ∈ st.types, ∀ a ∈ ty.atoms, P a

variable {P : Atom → Prop} {e : Operand} {st : Statement}

/-- A statement on the operand itself. -/
theorem Concerns.single (ho : st.operands = [e]) (ht : ∀ ty ∈ st.types, ∀ a ∈ ty.atoms, P a) :
    Concerns P e st := by
  refine ⟨fun o hm => ?_, ht⟩
  rw [ho, List.mem_singleton] at hm
  rw [hm]
  exact ⟨rfl, rfl⟩

/-- A statement on the operand itself that spells no type. -/
theorem Concerns.typeless (ho : st.operands = [e]) (ht : st.types = []) : Concerns P e st :=
  .single ho (by simp [ht])

/-- A statement on the operand itself that spells its type. -/
theorem Concerns.typed {ty : Ty} (ho : st.operands = [e]) (ht : st.types = [ty])
    (hty : ∀ a ∈ ty.atoms, P a) : Concerns P e st :=
  .single ho (by simpa [ht] using hty)

/-- What the operand points to is behind the same field. -/
theorem Concerns.of_target (h : Concerns P e.target st) : Concerns P e st := ⟨h.operands, h.types⟩

theorem Concerns.guarded (h : Concerns P e st) : Concerns P e (.guarded e st) :=
  ⟨List.forall_mem_cons.2 ⟨⟨rfl, rfl⟩, h.operands⟩, h.types⟩

end Statement

namespace Surroundings

open Statement

variable {s : Surroundings} {P : Atom → Prop} {e : Operand} {ty : Ty}

theorem concerns_resetUnresolved (ht : s.table.Declares P) (e : Operand)
    (hty : ∀ a ∈ ty.atoms, P a) : Concerns P e (s.resetUnresolved e ty) := by
  unfold resetUnresolved
  split
  · rename_i n hn
    exact .typed rfl rfl (TypeTable.unaliasWithin_atoms ht hty hn)
  · exact .typeless rfl rfl

/-- The statement for an operand is about its field, and it spells declared types only. -/
theorem concerns_resetWithin (ht : s.table.Declares P) (fuel : Nat) (e : Operand)
    (hty : ∀ a ∈ ty.atoms, P a) : Concerns P e (s.resetWithin fuel e ty) := by
  induction fuel generalizing e ty with
  | zero =>
    rw [resetWithin]
    cases s.table.underlying ty with
    | none => exact concerns_resetUnresolved ht e hty
    | some shape => exact .typed rfl rfl hty
  | succ fuel ih =>
    rw [resetWithin]
    cases hu : s.table.underlying ty with
    | none => exact concerns_resetUnresolved ht e hty
    | some shape =>
      have hshape := TypeTable.underlyingWithin_atoms ht hty hu
      cases shape with
      | pointer elem =>
        have helem : ∀ a ∈ elem.atoms, P a := hshape
        refine .guarded ?_
        split
        · split
          · exact .of_target (.typeless rfl rfl)
          · exact .typeless rfl rfl
        · exact .of_target (ih e.target helem)
      | struct fields =>
        simp only
        split
        · exact .typeless rfl rfl
        · exact .typed rfl rfl hty
      | interface methods embeds =>
        refine .guarded ?_
        split
        · exact .typeless rfl rfl
        · exact .typeless rfl rfl
      | array length elem => exact .typed rfl rfl hty
      | typeParam name => exact .typed rfl rfl hty
      | named n => exact .typed rfl rfl hty
      | slice elem => exact .typeless rfl rfl
      | map key value => exact .typeless rfl rfl
      | basic kind => exact .typeless rfl rfl
      | channel direction elem => exact .typeless rfl rfl
      | function signature => exact .typeless rfl rfl

end Surroundings

/-! ## Methods -/

theorem Ty.atoms_of_mem_fields {fields : List (Field Ty)} {f : Field Ty} (h : f ∈ fields) :
    ∀ a ∈ Field.atoms f, a ∈ Ty.atomsOfFields fields := by
  intro a ha
  induction fields with
  | nil => cases h
  | cons field rest ih =>
    rw [Ty.atomsOfFields, List.mem_append]
    obtain rfl | h := List.mem_cons.1 h
    · exact .inl ha
    · exact .inr (ih h)

theorem Field.name_mem_atoms (f : Field Ty) : .name f.name ∈ f.atoms := by
  obtain ⟨name, type, embedded, tag, package⟩ := f
  exact List.mem_cons_self

theorem Field.atoms_of_type (f : Field Ty) : ∀ a ∈ f.type.atoms, a ∈ f.atoms := by
  obtain ⟨name, type, embedded, tag, package⟩ := f
  intro a ha
  exact List.mem_cons_of_mem _ (List.mem_append_left _ ha)

/-- The declaration of a struct type that a method is made for. Its body works on the declared
fields and spells declared types. -/
theorem ResetMethod.exists_declaration {s : Surroundings} {receiver : String} {n : Named Ty}
    {m : ResetMethod} {P : Atom → Prop} (h : of? s receiver n = some m) (ht : s.table.Declares P) :
    m.receiver = receiver ∧ (∃ d ∈ s.table.values, m.typeName = d.name) ∧
      ∀ st ∈ m.body, ∃ field, P (.name field) ∧ st.Concerns P (.ofField receiver field) := by
  unfold of? at h
  split at h
  · cases h
  · rename_i d hd
    have hmem : d ∈ s.table.values := Dict.mem_values_of_get? hd
    split at h
    · cases h
    · split at h
      · rename_i fields hu
        have hfields := TypeTable.underlyingWithin_atoms ht (ht d hmem) hu
        cases h
        refine ⟨rfl, ⟨d, hmem, rfl⟩, fun st hst => ?_⟩
        obtain ⟨f, hf, rfl⟩ := List.mem_map.1 hst
        have hatoms : ∀ a ∈ f.atoms, P a := fun a ha =>
          hfields a (Ty.atoms_of_mem_fields (List.mem_filter.1 hf).1 a ha)
        have htype : ∀ a ∈ f.type.atoms, P a := fun a ha => hatoms a (f.atoms_of_type a ha)
        exact ⟨f.name, hatoms _ f.name_mem_atoms, Surroundings.concerns_resetWithin ht _ _ htype⟩
      · cases h

/-! ## Packages -/

mutual

/-- A package that the text of a type names is an atom of the type, or declares `unsafe.Pointer`. -/
theorem Ty.package_mem_atoms {p : PackageRef} :
    ∀ ty : Ty, p ∈ ty.packages → .package p ∈ ty.atoms ∨ p = .unsafePackage
  | .basic kind, h => by
    cases kind <;> simp_all [Ty.packages]
  | .named n, h => Named.package_mem_atoms n h
  | .pointer elem, h => Ty.package_mem_atoms elem h
  | .slice elem, h => Ty.package_mem_atoms elem h
  | .array length elem, h => (Ty.package_mem_atoms elem h).imp_left (List.mem_cons_of_mem _)
  | .map key value, h => by
    obtain h | h := List.mem_append.1 h
    · exact (Ty.package_mem_atoms key h).imp_left (List.mem_append_left _)
    · exact (Ty.package_mem_atoms value h).imp_left (List.mem_append_right _)
  | .channel _ elem, h => Ty.package_mem_atoms elem h
  | .function signature, h => Signature.package_mem_atoms signature h
  | .struct fields, h => Ty.package_mem_atomsOfFields fields h
  | .interface methods embeds, h => by
    obtain h | h := List.mem_append.1 h
    · exact (Ty.package_mem_atomsOfAll embeds h).imp_left (List.mem_append_left _)
    · exact (Ty.package_mem_atomsOfMethods methods h).imp_left (List.mem_append_right _)
  | .typeParam _, h => nomatch h

theorem Named.package_mem_atoms {p : PackageRef} :
    ∀ n : Named Ty, p ∈ Named.packages n → .package p ∈ Named.atoms n ∨ p = .unsafePackage
  | ⟨package, name, args⟩, h => by
    obtain h | h := List.mem_append.1 h
    · exact .inl (List.mem_append_left _ (List.mem_map_of_mem h))
    · refine (Ty.package_mem_atomsOfAll args h).imp_left fun ha => ?_
      exact List.mem_append_right _ (List.mem_cons_of_mem _ ha)

theorem Ty.package_mem_atomsOfAll {p : PackageRef} :
    ∀ tys : List Ty, p ∈ Ty.packagesOfAll tys →
    .package p ∈ Ty.atomsOfAll tys ∨ p = .unsafePackage
  | [], h => nomatch h
  | ty :: rest, h => by
    obtain h | h := List.mem_append.1 h
    · exact (Ty.package_mem_atoms ty h).imp_left (List.mem_append_left _)
    · exact (Ty.package_mem_atomsOfAll rest h).imp_left (List.mem_append_right _)

theorem Signature.package_mem_atoms {p : PackageRef} :
    ∀ signature : Signature Ty, p ∈ Signature.packages signature →
    .package p ∈ Signature.atoms signature ∨ p = .unsafePackage
  | ⟨params, results, _⟩, h => by
    obtain h | h := List.mem_append.1 h
    · exact (Ty.package_mem_atomsOfAll params h).imp_left (List.mem_append_left _)
    · exact (Ty.package_mem_atomsOfAll results h).imp_left (List.mem_append_right _)

theorem Ty.package_mem_atomsOfFields {p : PackageRef} :
    ∀ fields : List (Field Ty), p ∈ Ty.packagesOfFields fields →
    .package p ∈ Ty.atomsOfFields fields ∨ p = .unsafePackage
  | [], h => nomatch h
  | field :: rest, h => by
    obtain h | h := List.mem_append.1 h
    · exact (Field.package_mem_atoms field h).imp_left (List.mem_append_left _)
    · exact (Ty.package_mem_atomsOfFields rest h).imp_left (List.mem_append_right _)

theorem Field.package_mem_atoms {p : PackageRef} :
    ∀ field : Field Ty, p ∈ Field.packages field →
    .package p ∈ Field.atoms field ∨ p = .unsafePackage
  | ⟨name, type, embedded, tag, package⟩, h => by
    have hfield := Field.atoms_of_type ⟨name, type, embedded, tag, package⟩
    exact (Ty.package_mem_atoms type h).imp_left (hfield _)

theorem Ty.package_mem_atomsOfMethods {p : PackageRef} :
    ∀ methods : List (MethodSpec Ty), p ∈ Ty.packagesOfMethods methods →
    .package p ∈ Ty.atomsOfMethods methods ∨ p = .unsafePackage
  | [], h => nomatch h
  | method :: rest, h => by
    obtain h | h := List.mem_append.1 h
    · exact (MethodSpec.package_mem_atoms method h).imp_left (List.mem_append_left _)
    · exact (Ty.package_mem_atomsOfMethods rest h).imp_left (List.mem_append_right _)

theorem MethodSpec.package_mem_atoms {p : PackageRef} :
    ∀ method : MethodSpec Ty, p ∈ MethodSpec.packages method →
    .package p ∈ MethodSpec.atoms method ∨ p = .unsafePackage
  | ⟨_, signature⟩, h =>
    (Signature.package_mem_atoms signature h).imp_left (List.mem_cons_of_mem _)

end

end ResetMethods
