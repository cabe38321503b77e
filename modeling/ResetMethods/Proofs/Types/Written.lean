import ResetMethods.Proofs.Dict
import ResetMethods.Proofs.Types.Parts

/-!
# ResetMethods.Proofs.Types.Written

Declarations and the source that they were read from.

* `get?_typeTable`: under a key stands the last declaration of that key with the methods of all
  functions that name it as their receiver; without one, what was predeclared.
* `Declaration.IsWritten`: a declaration is what a type of some file was resolved to.
* `typeTable_cases`: every declaration of a load is written in one of its files, or is the
  predeclared `error`.
* `IsWritten.mem_typeParams`, `IsWritten.fields_package`, `IsWritten.denotes`: what a part of the
  right-hand side was written as.
-/

namespace ResetMethods

/-- What names mean in a type of a file, its own type parameters included. -/
def TypeSpec.scope (load : List SourcePackage) (source : SourcePackage) (file : SourceFile)
    (spec : TypeSpec) : Scope :=
  { Scope.ofFile load source.ref file with typeParams := spec.typeParams }

/-- The declaration is what a type of a file was resolved to, methods aside. -/
structure Declaration.IsWritten (load : List SourcePackage) (d : Declaration)
    (source : SourcePackage) (file : SourceFile) (spec : TypeSpec) : Prop where
  mem_load : source ∈ load
  mem_sources : file ∈ source.sources
  mem_specs : spec ∈ file.typeSpecs
  resolve : { d with methods := [] } = spec.resolve (Scope.ofFile load source.ref file)

/-- The methods whose receiver is the type, in order. -/
def methodsOn (ms : List ReceivedMethod) (k : TypeKey) : List Method :=
  (ms.filter (·.receiver = k)).map (·.method)

/-- A declaration with methods added. -/
def Declaration.withMethods (d : Declaration) (ms : List Method) : Declaration :=
  { d with methods := d.methods ++ ms }

/-! ## The table of a load -/

section Table

variable {load : List SourcePackage} {d : Declaration} {t : TypeTable} {k : TypeKey}

/-- Of the declarations of one key the last stands. -/
theorem get?_declareAll (ds : List Declaration) (t : TypeTable) (k : TypeKey) :
    (ds.foldl TypeTable.declare t).get? k = ((ds.filter (·.key = k)).getLast?).or (t.get? k) := by
  induction ds generalizing t with
  | nil => rfl
  | cons d ds ih =>
    rw [List.foldl_cons, ih, TypeTable.declare, Dict.get?_insert, List.filter_cons]
    by_cases hk : d.key = k
    · rw [if_pos hk.symm, if_pos (by simpa using hk), List.getLast?_cons]
      cases (ds.filter (·.key = k)).getLast? <;> rfl
    · rw [if_neg (Ne.symm hk), if_neg (by simpa using hk)]

/-- A declaration gets the methods of its key, and nothing else changes. -/
theorem get?_attachAll (ms : List ReceivedMethod) (t : TypeTable) (k : TypeKey) :
    (ms.foldl attach t).get? k = (t.get? k).map (·.withMethods (methodsOn ms k)) := by
  induction ms generalizing t with
  | nil =>
    have hnone : ∀ d : Declaration, d.withMethods (methodsOn [] k) = d := fun d => by
      simp [Declaration.withMethods, methodsOn]
    simp [hnone]
  | cons m ms ih =>
    rw [List.foldl_cons, ih, attach, Dict.get?_modify, methodsOn, methodsOn, List.filter_cons]
    by_cases hk : m.receiver = k
    · subst hk
      simp [Declaration.withMethods, Function.comp_def]
    · rw [if_neg (Ne.symm hk), if_neg (by simpa using hk)]

theorem get?_typeTable (load : List SourcePackage) (k : TypeKey) :
    (typeTable load).get? k =
      ((((load.flatMap (·.declarations load)).filter (·.key = k)).getLast?).or
        (TypeTable.initial.get? k)).map (·.withMethods (methodsOn (receivedMethods load) k)) := by
  rw [typeTable, get?_attachAll, declaredTypes, get?_declareAll]

theorem eq_error_of_initial (h : TypeTable.initial.get? k = some d) : d = .error ∧ d.key = k := by
  rw [TypeTable.initial, TypeTable.declare, Dict.get?_insert] at h
  split at h
  · rename_i hk
    cases h
    exact ⟨rfl, hk.symm⟩
  · cases h

theorem exists_spec_of_mem_declarations {source : SourcePackage} (h : d ∈ source.declarations load) :
    ∃ file ∈ source.sources, ∃ spec ∈ file.typeSpecs,
      d = spec.resolve (Scope.ofFile load source.ref file) := by
  obtain ⟨file, hfile, h⟩ := List.mem_flatMap.1 h
  obtain ⟨spec, hspec, rfl⟩ := List.mem_map.1 h
  exact ⟨file, hfile, spec, hspec, rfl⟩

/-- A declaration of a load is one of a package, or the predeclared one, with its methods. -/
theorem exists_of_get?_typeTable (h : (typeTable load).get? k = some d) :
    ∃ e : Declaration, d = e.withMethods (methodsOn (receivedMethods load) k) ∧ e.key = k ∧
      e.methods = [] ∧ (e = .error ∨ ∃ source ∈ load, e ∈ source.declarations load) := by
  rw [get?_typeTable] at h
  obtain ⟨e, he, rfl⟩ := Option.map_eq_some_iff.1 h
  refine ⟨e, rfl, ?_⟩
  rcases Option.or_eq_some_iff.1 he with he | ⟨-, he⟩
  · obtain ⟨hmem, hkey⟩ := List.mem_filter.1 (List.mem_of_getLast? he)
    obtain ⟨source, hsource, hmem⟩ := List.mem_flatMap.1 hmem
    obtain ⟨file, -, spec, -, hspec⟩ := exists_spec_of_mem_declarations hmem
    exact ⟨by simpa using hkey, hspec ▸ rfl, .inr ⟨source, hsource, hmem⟩⟩
  · obtain ⟨herror, hkey⟩ := eq_error_of_initial he
    exact ⟨hkey, herror ▸ rfl, .inl herror⟩

/-- Every declaration of a load is written in one of its files, or it is the predeclared `error`. -/
theorem typeTable_cases (h : (typeTable load).get? k = some d) :
    (∃ source file spec, d.IsWritten load source file spec) ∨
      { d with methods := [] } = Declaration.error := by
  obtain ⟨e, rfl, -, -, rfl | ⟨source, hsource, hmem⟩⟩ := exists_of_get?_typeTable h
  · exact .inr rfl
  · obtain ⟨file, hfile, spec, hspec, rfl⟩ := exists_spec_of_mem_declarations hmem
    exact .inl ⟨source, file, spec, hsource, hfile, hspec, rfl⟩

end Table

/-! ## What is written in a declaration -/

namespace Declaration.IsWritten

variable {load : List SourcePackage} {d : Declaration} {source : SourcePackage} {file : SourceFile}
  {spec : TypeSpec} {u : Ty}

theorem typeParams_eq (h : d.IsWritten load source file spec) : d.typeParams = spec.typeParams :=
  congrArg Declaration.typeParams h.resolve

theorem rhs_eq (h : d.IsWritten load source file spec) :
    d.rhs = spec.type.resolve (spec.scope load source file) :=
  congrArg Declaration.rhs h.resolve

theorem package_eq (h : d.IsWritten load source file spec) : d.key.package = source.path := by
  have hpackage : d.package = some source.ref := congrArg Declaration.package h.resolve
  rw [key, named, Named.key, hpackage]
  rfl

theorem mem_declarations (h : d.IsWritten load source file spec) :
    { d with methods := [] } ∈ source.declarations load := by
  rw [h.resolve]
  exact List.mem_flatMap.2 ⟨file, h.mem_sources, List.mem_map_of_mem h.mem_specs⟩

/-- A type parameter in a declaration is one of the declaration. -/
theorem mem_typeParams (h : d.IsWritten load source file spec) {name : String}
    (hu : d.rhs.Mentions (.typeParam name)) : name ∈ d.typeParams := by
  rw [h.rhs_eq] at hu
  obtain ⟨e, -, he⟩ := TypeExpr.mentions_resolve hu
  rw [h.typeParams_eq]
  exact TypeExpr.mem_of_resolve_eq_typeParam he.symm

/-- The fields of a struct type belong to the package that writes the struct type. -/
theorem fields_package (h : d.IsWritten load source file spec) {fields : List (Field Ty)}
    (hu : d.rhs.Mentions (.struct fields)) {f : Field Ty} (hf : f ∈ fields) :
    f.package = d.key.package := by
  rw [h.rhs_eq] at hu
  obtain ⟨e, -, he⟩ := TypeExpr.mentions_resolve hu
  rw [h.package_eq]
  exact TypeExpr.package_of_resolve_eq_struct he.symm f hf

/-- A name of a package was written as an expression that denotes it. -/
theorem denotes (h : d.IsWritten load source file spec) {p : PackageRef} {name : String}
    (hr : d.rhs.Refers p name) :
    ∃ e q, spec.type.Mentions e ∧ (spec.scope load source file).Denotes e (some q) name ∧
      q.path = p.path := by
  obtain ⟨u, hu, hreference⟩ := hr
  rw [h.rhs_eq] at hu
  obtain ⟨e, hmentions, rfl⟩ := TypeExpr.mentions_resolve hu
  rcases Ty.reference?_eq_some hreference with ⟨args, he⟩ | ⟨he, rfl, rfl⟩
  · exact ⟨e, p, hmentions, TypeExpr.denotes_of_resolve_eq_named he, rfl⟩
  · obtain ⟨qualifier, q, rfl, hlookup, hpath⟩ := TypeExpr.qualified_of_resolve_eq_unsafePointer he
    exact ⟨_, q, hmentions, .qualified hlookup, hpath⟩

end Declaration.IsWritten

end ResetMethods
