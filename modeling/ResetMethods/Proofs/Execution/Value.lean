import Mathlib.Tactic.Choose
import ResetMethods.Proofs.Types.Walk

/-!
# ResetMethods.Proofs.Execution.Value

Values at run time, as trees: a pointer is `nil` or owns its target, a slice or a map is `nil` or
holds entries, an interface is `nil` or holds a value of some dynamic type.

* `HasType`: which values a type has.
* `IsZero`: the zero value of a type. There is at most one (`IsZero.unique`), and a type that has a
  value at all has one (`HasType.exists_zero`).

What a load does not tell is a parameter: the numbers that array lengths denote, and the zero values
of types without a known shape (`Externals`).
-/

namespace ResetMethods

/-- A value, as a tree. A scalar is given by a literal, the fields of a struct by their order. A
channel or a function is `nil` or refers to something. -/
inductive GoValue where
  | scalar (literal : String)
  | pointer (target : Option GoValue)
  | slice (elems : Option (List GoValue))
  | map (entries : Option (List (GoValue × GoValue)))
  | struct (fields : List GoValue)
  | array (elems : List GoValue)
  | interface (held : Option (Ty × GoValue))
  | reference (id : Option Nat)
  deriving Inhabited

/-- Whether a value is `nil`, if values of its kind can be. -/
def GoValue.isNil? : GoValue → Option Bool
  | .pointer target => some target.isNone
  | .slice elems => some elems.isNone
  | .map entries => some entries.isNone
  | .interface held => some held.isNone
  | .reference id => some id.isNone
  | .scalar _ | .struct _ | .array _ => none

/-- What a load does not tell about its types. -/
structure Externals where
  /-- The number that the text of an array length denotes. -/
  arrayLength : String → Nat
  /-- The zero value of a type without a known shape. -/
  foreignZero : Ty → GoValue

/-- The zero value of a type. -/
inductive IsZero (t : TypeTable) (x : Externals) : Ty → GoValue → Prop where
  | scalar {ty : Ty} {kind : BasicKind} :
      t.shape? ty = some (.basic kind) → IsZero t x ty (.scalar kind.zeroLiteral)
  | pointer {ty elem : Ty} : t.shape? ty = some (.pointer elem) → IsZero t x ty (.pointer none)
  | slice {ty elem : Ty} : t.shape? ty = some (.slice elem) → IsZero t x ty (.slice none)
  | map {ty key value : Ty} : t.shape? ty = some (.map key value) → IsZero t x ty (.map none)
  | channel {ty elem : Ty} {d : Direction} :
      t.shape? ty = some (.channel d elem) → IsZero t x ty (.reference none)
  | function {ty : Ty} {sig : Signature Ty} :
      t.shape? ty = some (.function sig) → IsZero t x ty (.reference none)
  | interface {ty : Ty} {methods : List (MethodSpec Ty)} {embeds : List Ty} :
      t.shape? ty = some (.interface methods embeds) → IsZero t x ty (.interface none)
  | struct {ty : Ty} {fields : List (Field Ty)} {values : List GoValue} :
      t.shape? ty = some (.struct fields) → values.length = fields.length →
      (∀ (i : Nat) (f : Field Ty) (v : GoValue), fields[i]? = some f → values[i]? = some v →
        IsZero t x f.type v) →
      IsZero t x ty (.struct values)
  | emptyArray {ty elem : Ty} {length : String} :
      t.shape? ty = some (.array length elem) → x.arrayLength length = 0 →
      IsZero t x ty (.array [])
  | array {ty elem : Ty} {length : String} {z : GoValue} :
      t.shape? ty = some (.array length elem) → IsZero t x elem z →
      IsZero t x ty (.array (List.replicate (x.arrayLength length) z))
  | foreign {ty : Ty} : t.shape? ty = none → IsZero t x ty (x.foreignZero ty)

/-- A value of a type. Nothing is known about the values of a type without a known shape. -/
inductive HasType (t : TypeTable) (x : Externals) : GoValue → Ty → Prop where
  | scalar {ty : Ty} {kind : BasicKind} (literal : String) :
      t.shape? ty = some (.basic kind) → HasType t x (.scalar literal) ty
  | nilPointer {ty elem : Ty} :
      t.shape? ty = some (.pointer elem) → HasType t x (.pointer none) ty
  | pointer {ty elem : Ty} {v : GoValue} :
      t.shape? ty = some (.pointer elem) → HasType t x v elem →
      HasType t x (.pointer (some v)) ty
  | nilSlice {ty elem : Ty} : t.shape? ty = some (.slice elem) → HasType t x (.slice none) ty
  | slice {ty elem : Ty} {elems : List GoValue} :
      t.shape? ty = some (.slice elem) → (∀ v ∈ elems, HasType t x v elem) →
      HasType t x (.slice (some elems)) ty
  | nilMap {ty key value : Ty} :
      t.shape? ty = some (.map key value) → HasType t x (.map none) ty
  | map {ty key value : Ty} {entries : List (GoValue × GoValue)} :
      t.shape? ty = some (.map key value) → (∀ e ∈ entries, HasType t x e.1 key) →
      (∀ e ∈ entries, HasType t x e.2 value) → HasType t x (.map (some entries)) ty
  | struct {ty : Ty} {fields : List (Field Ty)} {values : List GoValue} :
      t.shape? ty = some (.struct fields) → values.length = fields.length →
      (∀ (i : Nat) (f : Field Ty) (v : GoValue), fields[i]? = some f → values[i]? = some v →
        HasType t x v f.type) →
      HasType t x (.struct values) ty
  | array {ty elem : Ty} {length : String} {elems : List GoValue} :
      t.shape? ty = some (.array length elem) → elems.length = x.arrayLength length →
      (∀ v ∈ elems, HasType t x v elem) → HasType t x (.array elems) ty
  | nilInterface {ty : Ty} {methods : List (MethodSpec Ty)} {embeds : List Ty} :
      t.shape? ty = some (.interface methods embeds) → HasType t x (.interface none) ty
  | interface {ty dynamic : Ty} {methods : List (MethodSpec Ty)} {embeds : List Ty}
      {v : GoValue} :
      t.shape? ty = some (.interface methods embeds) → HasType t x v dynamic →
      HasType t x (.interface (some (dynamic, v))) ty
  | channel {ty elem : Ty} {d : Direction} (id : Option Nat) :
      t.shape? ty = some (.channel d elem) → HasType t x (.reference id) ty
  | function {ty : Ty} {sig : Signature Ty} (id : Option Nat) :
      t.shape? ty = some (.function sig) → HasType t x (.reference id) ty
  | foreign {ty : Ty} (v : GoValue) : t.shape? ty = none → HasType t x v ty

variable {t : TypeTable} {x : Externals} {ty : Ty}

/-- A type has one zero value at most. -/
theorem IsZero.unique {z w : GoValue} (hz : IsZero t x ty z) (hw : IsZero t x ty w) : z = w := by
  induction hz generalizing w with
  | struct hs hl _ ih =>
    cases hw with
    | struct hs' hl' hf' =>
      rw [hs] at hs'; cases hs'
      congr 1
      apply List.ext_getElem (by rw [hl, hl'])
      intro i hi hi'
      have hf : i < _ := hl ▸ hi
      exact ih i _ _ (List.getElem?_eq_getElem hf) (List.getElem?_eq_getElem hi)
        (hf' i _ _ (List.getElem?_eq_getElem hf) (List.getElem?_eq_getElem hi'))
    | _ => simp_all
  | emptyArray hs h0 =>
    cases hw with
    | emptyArray => rfl
    | array hs' => rw [hs] at hs'; cases hs'; rw [h0]; rfl
    | _ => simp_all
  | array hs _ ih =>
    cases hw with
    | emptyArray hs' h0 => rw [hs] at hs'; cases hs'; rw [h0]; rfl
    | array hs' hz' => rw [hs] at hs'; cases hs'; rw [ih hz']
    | _ => simp_all
  | _ => cases hw <;> simp_all

/-- A type that has a value has a zero value. -/
theorem HasType.exists_zero {v : GoValue} (h : HasType t x v ty) : ∃ z, IsZero t x ty z := by
  induction h with
  | scalar _ hs => exact ⟨_, .scalar hs⟩
  | nilPointer hs | pointer hs => exact ⟨_, .pointer hs⟩
  | nilSlice hs | slice hs => exact ⟨_, .slice hs⟩
  | nilMap hs | map hs => exact ⟨_, .map hs⟩
  | nilInterface hs | interface hs => exact ⟨_, .interface hs⟩
  | channel _ hs => exact ⟨_, .channel hs⟩
  | function _ hs => exact ⟨_, .function hs⟩
  | foreign _ hs => exact ⟨_, .foreign hs⟩
  | @struct ty fields values hs hl _ ih =>
    have hz : ∀ i : Fin fields.length, ∃ z, IsZero t x fields[i].type z := by
      intro i
      have hi : (i : Nat) < values.length := by omega
      exact ih i _ _ (List.getElem?_eq_getElem i.2) (List.getElem?_eq_getElem hi)
    choose z hz using hz
    refine ⟨.struct (List.ofFn z), .struct hs (by simp) fun i f v hf hv => ?_⟩
    obtain ⟨hi, rfl⟩ := List.getElem?_eq_some_iff.1 hf
    obtain ⟨hi', rfl⟩ := List.getElem?_eq_some_iff.1 hv
    simpa using hz ⟨i, hi⟩
  | @array ty elem length elems hs hl _ ih =>
    cases elems with
    | nil => exact ⟨_, .emptyArray hs hl.symm⟩
    | cons v vs =>
      obtain ⟨z, hz⟩ := ih v List.mem_cons_self
      exact ⟨_, .array hs hz⟩

end ResetMethods
