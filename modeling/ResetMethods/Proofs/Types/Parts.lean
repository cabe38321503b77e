import Mathlib.Logic.Relation
import ResetMethods.Resolution
import ResetMethods.Types.Spelling

/-!
# ResetMethods.Proofs.Types.Parts

The parts of a type, and where they come from.

* `Ty.children`, `Ty.Mentions`: the types that a type is made of, directly and on any level.
  `Ty.children_induction` is induction along them, and `Ty.Refers` finds a name of a package.
* `TypeExpr.children`, `TypeExpr.Mentions`: the same for type expressions as written.
* `Scope.Denotes`, `Scope.Means`: what a name, perhaps behind a qualifier, denotes in a scope, and
  what becomes of it. Every expression that is no literal is such a name (`means_resolve`).
* `TypeExpr.mentions_resolve`: every part of a resolved type is the resolution of a part of the
  expression.
-/

namespace ResetMethods

/-! ## Parts -/

def Signature.parts {τ : Type} (s : Signature τ) : List τ := s.params ++ s.results

/-- The types that a type is made of. -/
def Ty.children : Ty → List Ty
  | .basic _ => []
  | .named n => n.args
  | .pointer elem => [elem]
  | .slice elem => [elem]
  | .array _ elem => [elem]
  | .map key value => [key, value]
  | .channel _ elem => [elem]
  | .function signature => signature.parts
  | .struct fields => fields.map (·.type)
  | .interface methods embeds => embeds ++ methods.flatMap (·.signature.parts)
  | .typeParam _ => []

/-- The second type is the first one or a part of it. -/
def Ty.Mentions : Ty → Ty → Prop :=
  Relation.ReflTransGen fun outer inner => inner ∈ outer.children

/-- The name that a type is, with the package that declares it. Predeclared names have none. -/
def Ty.reference? : Ty → Option (PackageRef × String)
  | .named ⟨some package, name, _⟩ => some (package, name)
  | .basic .unsafePointer => some (.unsafePackage, "Pointer")
  | _ => none

/-- The name of the package is the type or stands in it. -/
def Ty.Refers (ty : Ty) (package : PackageRef) (name : String) : Prop :=
  ∃ u, ty.Mentions u ∧ u.reference? = some (package, name)

def InterfaceElem.parts {τ : Type} : InterfaceElem τ → List τ
  | .method _ signature => signature.parts
  | .embed type => [type]
  | .constraint => []

def TypeExpr.children : TypeExpr → List TypeExpr
  | .ident _ => []
  | .qualified _ _ => []
  | .pointer elem => [elem]
  | .slice elem => [elem]
  | .array _ elem => [elem]
  | .map key value => [key, value]
  | .channel _ elem => [elem]
  | .function signature => signature.parts
  | .struct fields => fields.map (·.type)
  | .interface elems => elems.flatMap (·.parts)
  | .generic base args => base :: args
  | .other _ => []

def TypeExpr.Mentions : TypeExpr → TypeExpr → Prop :=
  Relation.ReflTransGen fun outer inner => inner ∈ outer.children

namespace Ty

variable {ty u c : Ty}

@[simp] theorem Mentions.refl (ty : Ty) : ty.Mentions ty := Relation.ReflTransGen.refl

theorem Mentions.head (hc : c ∈ ty.children) (h : c.Mentions u) : ty.Mentions u :=
  Relation.ReflTransGen.head hc h

theorem Refers.of_mentions {p : PackageRef} {name : String} (h : ty.Mentions u)
    (hr : u.Refers p name) : ty.Refers p name := by
  obtain ⟨v, hv, hreference⟩ := hr
  exact ⟨v, h.trans hv, hreference⟩

theorem reference?_eq_some {package : PackageRef} {name : String}
    (h : ty.reference? = some (package, name)) :
    (∃ args, ty = .named ⟨some package, name, args⟩) ∨
      ty = .basic .unsafePointer ∧ package = .unsafePackage ∧ name = "Pointer" := by
  unfold reference? at h
  split at h
  · cases h
    exact .inl ⟨_, rfl⟩
  · cases h
    exact .inr ⟨rfl, rfl, rfl⟩
  · cases h

theorem mentions_iff : ty.Mentions u ↔ u = ty ∨ ∃ c ∈ ty.children, c.Mentions u := by
  rw [Mentions, Relation.ReflTransGen.cases_head_iff, eq_comm]

theorem sizeOf_parts_lt {s : Signature Ty} (h : c ∈ s.parts) : sizeOf c < sizeOf s := by
  obtain ⟨params, results, variadic⟩ := s
  rw [Signature.mk.sizeOf_spec]
  rcases List.mem_append.1 h with h | h
  · have hlt := List.sizeOf_lt_of_mem h
    simp only at hlt
    omega
  · have hlt := List.sizeOf_lt_of_mem h
    simp only at hlt
    omega

theorem sizeOf_lt_of_mem_children (h : c ∈ ty.children) : sizeOf c < sizeOf ty := by
  cases ty with
  | basic kind => cases h
  | typeParam name => cases h
  | named n =>
    obtain ⟨package, name, args⟩ := n
    have hlt : sizeOf c < sizeOf args := List.sizeOf_lt_of_mem h
    simp only [named.sizeOf_spec, Named.mk.sizeOf_spec]
    omega
  | pointer elem =>
    cases List.mem_singleton.1 h
    simp only [pointer.sizeOf_spec]
    omega
  | slice elem =>
    cases List.mem_singleton.1 h
    simp only [slice.sizeOf_spec]
    omega
  | array length elem =>
    cases List.mem_singleton.1 h
    simp only [array.sizeOf_spec]
    omega
  | map key value =>
    simp only [map.sizeOf_spec]
    rcases List.mem_cons.1 h with rfl | h
    · omega
    · cases List.mem_singleton.1 h
      omega
  | channel direction elem =>
    cases List.mem_singleton.1 h
    simp only [channel.sizeOf_spec]
    omega
  | function signature =>
    have hlt := sizeOf_parts_lt h
    simp only [function.sizeOf_spec]
    omega
  | struct fields =>
    obtain ⟨field, hf, rfl⟩ := List.mem_map.1 h
    have hlt := List.sizeOf_lt_of_mem hf
    obtain ⟨name, type, embedded, tag, package⟩ := field
    simp only [struct.sizeOf_spec, Field.mk.sizeOf_spec] at hlt ⊢
    omega
  | interface methods embeds =>
    rcases List.mem_append.1 h with h | h
    · have hlt := List.sizeOf_lt_of_mem h
      simp only [interface.sizeOf_spec]
      omega
    · obtain ⟨method, hm, hc⟩ := List.mem_flatMap.1 h
      have hlt := List.sizeOf_lt_of_mem hm
      have hpart := sizeOf_parts_lt hc
      obtain ⟨name, signature⟩ := method
      simp only [interface.sizeOf_spec, MethodSpec.mk.sizeOf_spec] at hlt ⊢ hpart
      omega

/-- Induction on a type along its parts. -/
theorem children_induction {P : Ty → Prop} (h : ∀ ty, (∀ c ∈ ty.children, P c) → P ty) (ty : Ty) :
    P ty :=
  h ty fun c _ => children_induction h c
termination_by sizeOf ty
decreasing_by exact sizeOf_lt_of_mem_children ‹_›

end Ty

/-! ## Resolution -/

namespace TypeExpr

variable {scope : Scope} {e : TypeExpr}

theorem resolveAll_eq (scope : Scope) (es : List TypeExpr) :
    resolveAll scope es = es.map (·.resolve scope) := by
  induction es with
  | nil => rfl
  | cons e es ih => rw [resolveAll, ih, List.map_cons]

theorem parts_resolve (scope : Scope) (s : Signature TypeExpr) :
    (s.resolve scope).parts = s.parts.map (·.resolve scope) := by
  obtain ⟨params, results, variadic⟩ := s
  simp only [Signature.resolve, Signature.parts, resolveAll_eq, List.map_append]

theorem mem_resolveFields {fields : List (FieldDecl TypeExpr)} {f : Field Ty}
    (h : f ∈ resolveFields scope fields) :
    f.package = scope.package.path ∧ ∃ group ∈ fields, f.type = group.type.resolve scope := by
  induction fields with
  | nil => cases h
  | cons group rest ih =>
    rw [resolveFields] at h
    rcases List.mem_append.1 h with h | h
    · obtain ⟨names, type, tag⟩ := group
      simp only [FieldDecl.resolve] at h
      split at h
      · cases List.mem_singleton.1 h
        exact ⟨rfl, _, List.mem_cons_self, rfl⟩
      · obtain ⟨name, -, rfl⟩ := List.mem_map.1 h
        exact ⟨rfl, _, List.mem_cons_self, rfl⟩
    · obtain ⟨hp, group', hg, ht⟩ := ih h
      exact ⟨hp, group', List.mem_cons_of_mem _ hg, ht⟩

theorem mem_resolveMethods {elems : List (InterfaceElem TypeExpr)} {m : MethodSpec Ty}
    (h : m ∈ resolveMethods scope elems) :
    ∃ signature, .method m.name signature ∈ elems ∧ m.signature = signature.resolve scope := by
  induction elems with
  | nil => cases h
  | cons elem rest ih =>
    cases elem with
    | method name signature =>
      rw [resolveMethods] at h
      rcases List.mem_cons.1 h with rfl | h
      · exact ⟨signature, List.mem_cons_self, rfl⟩
      · obtain ⟨signature, hm, hs⟩ := ih h
        exact ⟨signature, List.mem_cons_of_mem _ hm, hs⟩
    | embed type =>
      obtain ⟨signature, hm, hs⟩ := ih h
      exact ⟨signature, List.mem_cons_of_mem _ hm, hs⟩
    | constraint =>
      obtain ⟨signature, hm, hs⟩ := ih h
      exact ⟨signature, List.mem_cons_of_mem _ hm, hs⟩

theorem mem_resolveEmbeds {elems : List (InterfaceElem TypeExpr)} {ty : Ty}
    (h : ty ∈ resolveEmbeds scope elems) : ∃ type, .embed type ∈ elems ∧ ty = type.resolve scope := by
  induction elems with
  | nil => cases h
  | cons elem rest ih =>
    cases elem with
    | embed type =>
      rw [resolveEmbeds] at h
      rcases List.mem_cons.1 h with rfl | h
      · exact ⟨type, List.mem_cons_self, rfl⟩
      · obtain ⟨type', hm, ht⟩ := ih h
        exact ⟨type', List.mem_cons_of_mem _ hm, ht⟩
    | method name signature =>
      obtain ⟨type, hm, ht⟩ := ih h
      exact ⟨type, List.mem_cons_of_mem _ hm, ht⟩
    | constraint =>
      obtain ⟨type, hm, ht⟩ := ih h
      exact ⟨type, List.mem_cons_of_mem _ hm, ht⟩

end TypeExpr

/-- Whether an expression says how the type is made. A name, an instance of a generic type and an
expression without use are no literals. -/
def TypeExpr.isLiteral : TypeExpr → Bool
  | .ident _ | .qualified _ _ | .generic _ _ | .other _ => false
  | _ => true

def TypeExpr.args : TypeExpr → List TypeExpr
  | .generic _ args => args
  | _ => []

namespace Scope

/-- A name, perhaps behind a qualifier or before arguments, denotes a name of a package, or of none
if it is predeclared. -/
inductive Denotes (scope : Scope) : TypeExpr → Option PackageRef → String → Prop where
  | qualified {qualifier name : String} {p : PackageRef} :
      scope.imports.lookup qualifier = some p → Denotes scope (.qualified qualifier name) (some p) name
  | own {name : String} : scope.declares scope.package.path name = true →
      Denotes scope (.ident name) (some scope.package) name
  | dot {name : String} {p : PackageRef} : p ∈ scope.dots → scope.declares p.path name = true →
      Denotes scope (.ident name) (some p) name
  | predeclared {name : String} : Denotes scope (.ident name) none name
  | applied {base : TypeExpr} {args : List TypeExpr} {p : Option PackageRef} {name : String} :
      Denotes scope base p name → Denotes scope (.generic base args) p name

/-- What may become of an expression that is no literal. -/
inductive Means (scope : Scope) (e : TypeExpr) : Ty → Prop where
  | parameter {name : String} : name ∈ scope.typeParams → Means scope e (.typeParam name)
  | declared {n : Named Ty} : scope.Denotes e n.package n.name →
      n.args = e.args.map (·.resolve scope) → Means scope e (.named n)
  | basic {kind : BasicKind} : kind ≠ .unsafePointer → Means scope e (.basic kind)
  | unsafePointer {qualifier : String} {p : PackageRef} : e = .qualified qualifier "Pointer" →
      scope.imports.lookup qualifier = some p → p.path = "unsafe" →
      Means scope e (.basic .unsafePointer)
  | unconstrained : Means scope e (.interface [] [])

theorem Means.invalid {scope : Scope} {e : TypeExpr} : scope.Means e .invalid := .basic (by decide)

theorem means_predeclared {scope : Scope} {name : String} {ty : Ty} (h : predeclared? name = some ty) :
    scope.Means (.ident name) ty := by
  unfold predeclared? at h
  split at h
  · rename_i kind hkind
    cases h
    have hfound := List.find?_some hkind
    refine .basic ?_
    rintro rfl
    simp [BasicKind.isPredeclared] at hfound
  · split at h
    · rename_i herror
      cases h
      obtain rfl := beq_iff_eq.1 herror
      exact .declared .predeclared rfl
    · split at h
      · cases h
        exact .unconstrained
      · cases h

theorem means_ident (scope : Scope) (name : String) :
    scope.Means (.ident name) (scope.ident name) := by
  unfold ident
  split
  · rename_i hparam
    exact .parameter (by simpa using hparam)
  · split
    · rename_i hown
      exact .declared (.own hown) rfl
    · cases hp : predeclared? name with
      | some ty => exact means_predeclared hp
      | none =>
        simp only
        cases hd : scope.dots.find? fun dot => scope.declares dot.path name with
        | none => exact .invalid
        | some dot =>
          have hdeclares := List.find?_some hd
          exact .declared (.dot (List.mem_of_find?_eq_some hd) hdeclares) rfl

theorem means_qualified (scope : Scope) (qualifier name : String) :
    scope.Means (.qualified qualifier name) (scope.qualified qualifier name) := by
  unfold qualified
  cases hl : scope.imports.lookup qualifier with
  | none => exact .invalid
  | some p =>
    simp only
    split
    · rename_i hunsafe
      simp only [Bool.and_eq_true, beq_iff_eq] at hunsafe
      obtain ⟨hpath, rfl⟩ := hunsafe
      exact .unsafePointer rfl hl hpath
    · exact .declared (.qualified hl) rfl

end Scope

namespace TypeExpr

variable {scope : Scope} {e : TypeExpr}

theorem resolve_ne_named (h : e.isLiteral = true) (n : Named Ty) : e.resolve scope ≠ .named n := by
  intro hn
  cases e <;> first | cases hn | cases h

/-- Every expression is a literal, or it has one of a few meanings. -/
theorem means_resolve (scope : Scope) :
    ∀ e : TypeExpr, e.isLiteral = true ∨ scope.Means e (e.resolve scope)
  | .ident name => .inr (scope.means_ident name)
  | .qualified qualifier name => .inr (scope.means_qualified qualifier name)
  | .other _ => .inr .invalid
  | .generic base args => by
    refine .inr ?_
    rw [resolve, resolveAll_eq]
    cases hb : base.resolve scope with
    | named n =>
      rcases means_resolve scope base with hliteral | hmeans
      · exact absurd hb (resolve_ne_named hliteral n)
      · rw [hb] at hmeans
        cases hmeans with
        | declared hdenotes => exact .declared (.applied hdenotes) rfl
    | _ => exact .invalid
  | .pointer _ => .inl rfl
  | .slice _ => .inl rfl
  | .array _ _ => .inl rfl
  | .map _ _ => .inl rfl
  | .channel _ _ => .inl rfl
  | .function _ => .inl rfl
  | .struct _ => .inl rfl
  | .interface _ => .inl rfl

theorem args_subset_children (e : TypeExpr) : e.args ⊆ e.children := by
  cases e with
  | generic base args => exact List.subset_cons_self base args
  | _ => exact List.nil_subset _

/-- The parts of a resolved expression are its resolved parts. -/
theorem children_resolve {u : Ty} (h : u ∈ (e.resolve scope).children) :
    ∃ part ∈ e.children, u = part.resolve scope := by
  rcases means_resolve scope e with hliteral | hmeans
  · cases e with
    | pointer elem => exact ⟨elem, List.mem_cons_self, List.mem_singleton.1 h⟩
    | slice elem => exact ⟨elem, List.mem_cons_self, List.mem_singleton.1 h⟩
    | array length elem => exact ⟨elem, List.mem_cons_self, List.mem_singleton.1 h⟩
    | channel direction elem => exact ⟨elem, List.mem_cons_self, List.mem_singleton.1 h⟩
    | map key value =>
      rcases List.mem_cons.1 h with rfl | h
      · exact ⟨key, List.mem_cons_self, rfl⟩
      · exact ⟨value, List.mem_cons_of_mem _ List.mem_cons_self, List.mem_singleton.1 h⟩
    | function signature =>
      rw [resolve, Ty.children, parts_resolve] at h
      obtain ⟨part, hp, rfl⟩ := List.mem_map.1 h
      exact ⟨part, hp, rfl⟩
    | struct fields =>
      obtain ⟨f, hf, rfl⟩ := List.mem_map.1 h
      obtain ⟨-, group, hg, ht⟩ := mem_resolveFields hf
      exact ⟨group.type, List.mem_map_of_mem hg, ht⟩
    | interface elems =>
      rw [resolve, Ty.children] at h
      rcases List.mem_append.1 h with h | h
      · obtain ⟨type, hm, rfl⟩ := mem_resolveEmbeds h
        exact ⟨type, List.mem_flatMap.2 ⟨_, hm, List.mem_cons_self⟩, rfl⟩
      · obtain ⟨m, hm, h⟩ := List.mem_flatMap.1 h
        obtain ⟨signature, hm, hs⟩ := mem_resolveMethods hm
        rw [hs, parts_resolve] at h
        obtain ⟨part, hp, rfl⟩ := List.mem_map.1 h
        exact ⟨part, List.mem_flatMap.2 ⟨_, hm, hp⟩, rfl⟩
    | _ => cases hliteral
  · generalize e.resolve scope = ty at h hmeans
    cases hmeans with
    | declared _ hargs =>
      rw [Ty.children, hargs] at h
      obtain ⟨part, hp, rfl⟩ := List.mem_map.1 h
      exact ⟨part, args_subset_children e hp, rfl⟩
    | _ => cases h

/-- Every part of a resolved expression was written as a part of the expression. -/
theorem mentions_resolve {u : Ty} (h : (e.resolve scope).Mentions u) :
    ∃ part, e.Mentions part ∧ u = part.resolve scope := by
  induction h with
  | refl => exact ⟨e, .refl, rfl⟩
  | tail _ hchild ih =>
    obtain ⟨part, hpart, rfl⟩ := ih
    obtain ⟨next, hnext, rfl⟩ := children_resolve hchild
    exact ⟨next, hpart.tail hnext, rfl⟩

/-! ## What was written -/

theorem mem_of_resolve_eq_typeParam {name : String} (h : e.resolve scope = .typeParam name) :
    name ∈ scope.typeParams := by
  rcases means_resolve scope e with hliteral | hmeans
  · cases e <;> first | cases h | cases hliteral
  · rw [h] at hmeans
    cases hmeans with
    | parameter hm => exact hm

theorem denotes_of_resolve_eq_named {n : Named Ty} (h : e.resolve scope = .named n) :
    scope.Denotes e n.package n.name := by
  rcases means_resolve scope e with hliteral | hmeans
  · exact absurd h (resolve_ne_named hliteral n)
  · rw [h] at hmeans
    cases hmeans with
    | declared hdenotes => exact hdenotes

theorem qualified_of_resolve_eq_unsafePointer (h : e.resolve scope = .basic .unsafePointer) :
    ∃ qualifier p, e = .qualified qualifier "Pointer" ∧ scope.imports.lookup qualifier = some p ∧
      p.path = "unsafe" := by
  rcases means_resolve scope e with hliteral | hmeans
  · cases e <;> first | cases h | cases hliteral
  · rw [h] at hmeans
    cases hmeans with
    | basic hkind => exact absurd rfl hkind
    | unsafePointer he hlookup hpath => exact ⟨_, _, he, hlookup, hpath⟩

theorem package_of_resolve_eq_struct {fields : List (Field Ty)} (h : e.resolve scope = .struct fields) :
    ∀ f ∈ fields, f.package = scope.package.path := by
  intro f hf
  rcases means_resolve scope e with hliteral | hmeans
  · cases e with
    | struct groups =>
      rw [resolve, Ty.struct.injEq] at h
      rw [← h] at hf
      exact (mem_resolveFields hf).1
    | _ => first | cases h | cases hliteral
  · rw [h] at hmeans
    cases hmeans

end TypeExpr

end ResetMethods
