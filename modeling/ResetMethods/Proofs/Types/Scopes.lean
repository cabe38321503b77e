import Mathlib.Data.List.Count
import Mathlib.Data.List.Find
import ResetMethods.Proofs.Types.Declared

/-!
# ResetMethods.Proofs.Types.Scopes

What resolution reads of a scope, and of the packages of a load.

* `Scope.Agrees`: two scopes give every name the same meaning, so every expression is resolved to the
  same type (`TypeExpr.resolve_eq`).
* `Scope.Denotes.path_eq`: a name denotes one of the package itself, or of a package that the file
  imports.
* `packagesAt`: the packages of a load at a path. Nothing under a key comes from elsewhere.
* `get?_typeTable_of_mem`: what stands under a key that one type of a load has.
* `SourcePackage.SeesAlike`: two loads hold the same packages wherever a package looks for one.
  `get?_typeTable_eq`: they hold the same declarations of packages that see them alike.
* `SourcePackage.IsUnrelatedTo`: the path of a package is that of no other and imported by none.
* `IsUnrelatedTo.get?_typeTable`: so the load holds the same declarations of all other packages, with
  or without it.
* `IsUnrelatedTo.path_ne_of_refers`: none of those holds a name of it.
-/

namespace ResetMethods

/-- The scopes give every name the same meaning, and belong to packages of one path. -/
structure Scope.Agrees (scope scope' : Scope) : Prop where
  ident : ∀ name, scope.ident name = scope'.ident name
  qualified : ∀ qualifier name, scope.qualified qualifier name = scope'.qualified qualifier name
  path : scope.package.path = scope'.package.path

/-! ## Resolution -/

section Resolve

variable {scope scope' : Scope}

mutual

theorem TypeExpr.resolve_eq (h : scope.Agrees scope') :
    ∀ e : TypeExpr, e.resolve scope = e.resolve scope'
  | .ident name => h.ident name
  | .qualified qualifier name => h.qualified qualifier name
  | .pointer elem => congrArg Ty.pointer (TypeExpr.resolve_eq h elem)
  | .slice elem => congrArg Ty.slice (TypeExpr.resolve_eq h elem)
  | .array length elem => congrArg (Ty.array length) (TypeExpr.resolve_eq h elem)
  | .map key value => congrArg₂ Ty.map (TypeExpr.resolve_eq h key) (TypeExpr.resolve_eq h value)
  | .channel direction elem => congrArg (Ty.channel direction) (TypeExpr.resolve_eq h elem)
  | .function signature => congrArg Ty.function (Signature.resolve_eq h signature)
  | .struct fields => congrArg Ty.struct (TypeExpr.resolveFields_eq h fields)
  | .interface elems =>
    congrArg₂ Ty.interface (TypeExpr.resolveMethods_eq h elems) (TypeExpr.resolveEmbeds_eq h elems)
  | .generic base args =>
    congrArg₂ Ty.applyTo (TypeExpr.resolveAll_congr h args) (TypeExpr.resolve_eq h base)
  | .other _ => rfl

theorem TypeExpr.resolveAll_congr (h : scope.Agrees scope') :
    ∀ es : List TypeExpr, TypeExpr.resolveAll scope es = TypeExpr.resolveAll scope' es
  | [] => rfl
  | e :: rest => congrArg₂ List.cons (TypeExpr.resolve_eq h e) (TypeExpr.resolveAll_congr h rest)

theorem Signature.resolve_eq (h : scope.Agrees scope') :
    ∀ s : Signature TypeExpr, Signature.resolve scope s = Signature.resolve scope' s
  | ⟨params, results, variadic⟩ => by
    rw [Signature.resolve, Signature.resolve, TypeExpr.resolveAll_congr h params,
      TypeExpr.resolveAll_congr h results]

theorem TypeExpr.resolveFields_eq (h : scope.Agrees scope') :
    ∀ fields : List (FieldDecl TypeExpr),
      TypeExpr.resolveFields scope fields = TypeExpr.resolveFields scope' fields
  | [] => rfl
  | group :: rest =>
    congrArg₂ List.append (FieldDecl.resolve_eq h group) (TypeExpr.resolveFields_eq h rest)

theorem FieldDecl.resolve_eq (h : scope.Agrees scope') :
    ∀ group : FieldDecl TypeExpr, FieldDecl.resolve scope group = FieldDecl.resolve scope' group
  | ⟨names, type, tag⟩ => by
    simp only [FieldDecl.resolve, TypeExpr.resolve_eq h type, h.path]

theorem TypeExpr.resolveMethods_eq (h : scope.Agrees scope') :
    ∀ elems : List (InterfaceElem TypeExpr),
      TypeExpr.resolveMethods scope elems = TypeExpr.resolveMethods scope' elems
  | [] => rfl
  | .method name signature :: rest => by
    rw [TypeExpr.resolveMethods, TypeExpr.resolveMethods, Signature.resolve_eq h signature,
      TypeExpr.resolveMethods_eq h rest]
  | .embed _ :: rest => TypeExpr.resolveMethods_eq h rest
  | .constraint :: rest => TypeExpr.resolveMethods_eq h rest

theorem TypeExpr.resolveEmbeds_eq (h : scope.Agrees scope') :
    ∀ elems : List (InterfaceElem TypeExpr),
      TypeExpr.resolveEmbeds scope elems = TypeExpr.resolveEmbeds scope' elems
  | [] => rfl
  | .embed type :: rest =>
    congrArg₂ List.cons (TypeExpr.resolve_eq h type) (TypeExpr.resolveEmbeds_eq h rest)
  | .method _ _ :: rest => TypeExpr.resolveEmbeds_eq h rest
  | .constraint :: rest => TypeExpr.resolveEmbeds_eq h rest

end

end Resolve

/-! ## Imports -/

section Imports

variable {load : List SourcePackage} {source : SourcePackage} {file : SourceFile} {spec : TypeSpec}

@[simp] theorem path_packageAt (load : List SourcePackage) (path : String) :
    (packageAt load path).path = path := by
  unfold packageAt
  cases hl : loadedAt load path with
  | none => rfl
  | some source =>
    have hpath := List.find?_some hl
    exact beq_iff_eq.1 hpath

theorem Scope.path_of_lookup (package : PackageRef) {qualifier : String} {p : PackageRef}
    (h : (ofFile load package file).imports.lookup qualifier = some p) :
    ∃ spec ∈ file.imports, spec.path = p.path := by
  obtain ⟨l, l', himports, -⟩ := List.lookup_eq_some_iff.1 h
  have hmem : (qualifier, p) ∈ (ofFile load package file).imports := by
    rw [himports]
    exact List.mem_append_right _ List.mem_cons_self
  obtain ⟨spec, hspec, hsome⟩ := List.mem_filterMap.1 (List.mem_reverse.1 hmem)
  refine ⟨spec, hspec, ?_⟩
  rw [← path_packageAt load spec.path]
  simp only at hsome
  split at hsome
  · cases hsome
  · cases hsome
  · cases hsome
    rfl
  · cases hsome
    rfl

theorem Scope.path_of_mem_dots (package : PackageRef) {p : PackageRef}
    (h : p ∈ (ofFile load package file).dots) :
    ∃ spec ∈ file.imports, spec.path = p.path := by
  obtain ⟨spec, hspec, rfl⟩ := List.mem_map.1 h
  exact ⟨spec, List.mem_of_mem_filter hspec, (path_packageAt load spec.path).symm⟩

/-- A name of a package is one of the package at hand or of one that the file imports. -/
theorem Scope.Denotes.path_eq {e : TypeExpr} {p? : Option PackageRef} {name : String}
    (h : (spec.scope load source file).Denotes e p? name) {p : PackageRef} (hp : p? = some p) :
    p.path = source.path ∨ ∃ i ∈ file.imports, i.path = p.path := by
  induction h with
  | qualified hlookup =>
    cases hp
    exact .inr (path_of_lookup source.ref hlookup)
  | own =>
    cases hp
    exact .inl rfl
  | dot hmem =>
    cases hp
    exact .inr (path_of_mem_dots source.ref hmem)
  | predeclared => cases hp
  | applied _ ih => exact ih hp

end Imports

theorem Declaration.not_refers_error {p : PackageRef} {name : String} :
    ¬ Declaration.error.rhs.Refers p name := by
  rintro ⟨u, hu, hreference⟩
  rcases Ty.mentions_iff.1 hu with rfl | ⟨result, hresult, hu⟩
  · cases hreference
  · obtain rfl := List.mem_singleton.1 hresult
    rcases Ty.mentions_iff.1 hu with rfl | ⟨part, hpart, -⟩
    · cases hreference
    · cases hpart

/-! ## What a load holds at a path -/

/-- The packages of a load that have the path, in order. -/
def packagesAt (load : List SourcePackage) (path : String) : List SourcePackage :=
  load.filter (·.path = path)

theorem mem_packagesAt {load : List SourcePackage} {path : String} {source : SourcePackage} :
    source ∈ packagesAt load path ↔ source ∈ load ∧ source.path = path := by
  rw [packagesAt, List.mem_filter, decide_eq_true_eq]

/-- Where no two packages have one path, a package is alone at its path. -/
theorem packagesAt_of_mem {load : List SourcePackage} (hpaths : (load.map (·.path)).Nodup)
    {source : SourcePackage} (h : source ∈ load) : packagesAt load source.path = [source] :=
  filter_eq_singleton h (List.nodup_iff_count_le_one.1 hpaths source.path)

theorem loadedAt_eq (load : List SourcePackage) (path : String) :
    loadedAt load path = (packagesAt load path).getLast? := by
  have hsame : (fun source : SourcePackage => source.path == path) =
      fun source => decide (source.path = path) := rfl
  rw [loadedAt, hsame, packagesAt, ← List.head?_filter, List.filter_reverse, List.head?_reverse]

/-- What only packages at one path have is found there. -/
theorem filter_flatMap_packagesAt {β : Type} {load : List SourcePackage} {path : String}
    {f : SourcePackage → List β} {p : β → Bool}
    (h : ∀ source ∈ load, ∀ b ∈ f source, p b = true → source.path = path) :
    (load.flatMap f).filter p = ((packagesAt load path).flatMap f).filter p := by
  induction load with
  | nil => rfl
  | cons source rest ih =>
    obtain ⟨hsource, hrest⟩ := List.forall_mem_cons.1 h
    rw [List.flatMap_cons, List.filter_append, ih hrest, packagesAt, packagesAt]
    by_cases hpath : source.path = path
    · rw [List.filter_cons_of_pos (by simpa using hpath), List.flatMap_cons, List.filter_append]
    · have hnone : (f source).filter p = [] :=
        List.filter_eq_nil_iff.2 fun b hb hp => hpath (hsource b hb hp)
      rw [List.filter_cons_of_neg (by simpa using hpath), hnone, List.nil_append]

/-- Scopes agree that differ in the load only, and there in no package whose names need none. -/
theorem Scope.agrees_of_declaresType (scope : Scope) {load : List SourcePackage}
    (hown : ∀ name, declaresType load scope.package.path name = scope.declares scope.package.path name)
    (hdots : ∀ name, ∀ p ∈ scope.dots, declaresType load p.path name = scope.declares p.path name) :
    Agrees { scope with load } scope := by
  refine ⟨fun name => ?_, fun _ _ => rfl, rfl⟩
  have hfind : (scope.dots.find? fun p => declaresType load p.path name) =
      scope.dots.find? fun p => scope.declares p.path name := List.find?_congr (hdots name)
  unfold ident
  simp only [← hown name, ← hfind]
  rfl

/-- Two loads hold the same package at the path of a package, and at each path that it imports. -/
structure SourcePackage.SeesAlike (source : SourcePackage) (load load' : List SourcePackage) :
    Prop where
  own : loadedAt load source.path = loadedAt load' source.path
  imports : ∀ file ∈ source.sources, ∀ spec ∈ file.imports,
    loadedAt load spec.path = loadedAt load' spec.path

section Alike

variable {load load' : List SourcePackage} {source : SourcePackage} {file : SourceFile} {k : TypeKey}

namespace SourcePackage.SeesAlike

theorem agrees (h : source.SeesAlike load load') (hfile : file ∈ source.sources)
    (typeParams : List String) :
    Scope.Agrees { Scope.ofFile load source.ref file with typeParams }
      { Scope.ofFile load' source.ref file with typeParams } := by
  have himports := h.imports file hfile
  have hnames : (Scope.ofFile load source.ref file).imports =
      (Scope.ofFile load' source.ref file).imports := by
    refine congrArg List.reverse (List.filterMap_congr fun spec hspec => ?_)
    simp only [packageAt, himports spec hspec]
  have hdots : (Scope.ofFile load source.ref file).dots =
      (Scope.ofFile load' source.ref file).dots := by
    refine List.map_congr_left fun spec hspec => ?_
    simp only [packageAt, himports spec (List.mem_of_mem_filter hspec)]
  simp only [hnames, hdots]
  refine Scope.agrees_of_declaresType
    { Scope.ofFile load' source.ref file with typeParams } (fun name => ?_) (fun name p hp => ?_)
  · exact congrArg (fun package? : Option SourcePackage =>
      package?.any fun package => package.typeSpecs.any (·.name == name)) h.own
  · obtain ⟨spec, hspec, hpath⟩ := Scope.path_of_mem_dots source.ref hp
    have hloaded := himports spec hspec
    rw [hpath] at hloaded
    exact congrArg (fun package? : Option SourcePackage =>
      package?.any fun package => package.typeSpecs.any (·.name == name)) hloaded

theorem declarations_eq (h : source.SeesAlike load load') :
    source.declarations load = source.declarations load' := by
  unfold declarations
  refine List.flatMap_congr fun file hfile => List.map_congr_left fun spec hspec => ?_
  have hrhs := TypeExpr.resolve_eq (h.agrees hfile spec.typeParams) spec.type
  rw [TypeSpec.resolve, TypeSpec.resolve, hrhs]
  rfl

theorem methods_eq (h : source.SeesAlike load load') :
    source.methods load = source.methods load' := by
  unfold methods
  refine List.flatMap_congr fun file hfile => List.filterMap_congr fun decl hdecl => ?_
  have hsignature := Signature.resolve_eq (h.agrees hfile []) decl.signature
  refine congrArg (decl.receiver.map ·) (funext fun receiver => ?_)
  exact congrArg (fun signature => ReceivedMethod.mk ⟨source.path, receiver.typeName⟩
    ⟨decl.name, receiver.pointer, signature⟩) hsignature

end SourcePackage.SeesAlike

theorem path_of_mem_declarations {d : Declaration} (h : d ∈ source.declarations load) :
    d.key.package = source.path := by
  obtain ⟨file, -, spec, -, rfl⟩ := exists_spec_of_mem_declarations h
  rfl

theorem path_of_mem_methods {m : ReceivedMethod} (h : m ∈ source.methods load) :
    m.receiver.package = source.path := by
  obtain ⟨file, -, h⟩ := List.mem_flatMap.1 h
  obtain ⟨decl, -, h⟩ := List.mem_filterMap.1 h
  obtain ⟨receiver, -, rfl⟩ := Option.map_eq_some_iff.1 h
  rfl

/-- Only the packages at the path of a key declare something under it. -/
theorem filter_declarations_eq (load : List SourcePackage) (k : TypeKey) :
    (load.flatMap (·.declarations load)).filter (·.key = k) =
      ((packagesAt load k.package).flatMap (·.declarations load)).filter (·.key = k) := by
  refine filter_flatMap_packagesAt fun source _ d hd hk => ?_
  rw [← of_decide_eq_true hk]
  exact (path_of_mem_declarations hd).symm

theorem methodsOn_receivedMethods (load : List SourcePackage) (k : TypeKey) :
    methodsOn (receivedMethods load) k =
      methodsOn ((packagesAt load k.package).flatMap (·.methods load)) k := by
  refine congrArg (List.map _) (filter_flatMap_packagesAt fun source _ m hm hk => ?_)
  rw [← of_decide_eq_true hk]
  exact (path_of_mem_methods hm).symm

theorem keys_declarations (load : List SourcePackage) (source : SourcePackage) :
    (source.declarations load).map (·.key) =
      (source.typeSpecs.map (·.name)).map (TypeKey.mk source.path) := by
  rw [SourcePackage.declarations, SourcePackage.typeSpecs, List.map_flatMap, List.map_flatMap,
    List.map_flatMap]
  refine List.flatMap_congr fun file _ => ?_
  rw [List.map_map, List.map_map]
  rfl

/-- A type that is the only one of its name in a package at a path of its own stands in the table with
the methods of the package that name it as their receiver. -/
theorem get?_typeTable_of_mem (hpaths : (load.map (·.path)).Nodup) (hsource : source ∈ load)
    {d : Declaration} (hd : d ∈ source.declarations load)
    (honce : (source.typeSpecs.map (·.name)).count d.name ≤ 1) :
    (typeTable load).get? d.key =
      some (d.withMethods (methodsOn (source.methods load) d.key)) := by
  have hkey : d.key = ⟨source.path, d.name⟩ := by
    rw [← path_of_mem_declarations hd]
    rfl
  have hcount : ((source.declarations load).map (·.key)).count d.key ≤ 1 := by
    rw [keys_declarations, hkey,
      List.count_map_of_injective _ (TypeKey.mk source.path) fun _ _ h => (TypeKey.mk.inj h).2]
    exact honce
  rw [get?_typeTable, filter_declarations_eq, methodsOn_receivedMethods,
    path_of_mem_declarations hd, packagesAt_of_mem hpaths hsource, List.flatMap_singleton,
    List.flatMap_singleton, filter_eq_singleton hd hcount]
  rfl

/-- Two loads hold the same declaration under a key, if they have the same packages at its path, and
these see the same packages. -/
theorem get?_typeTable_eq (hat : packagesAt load k.package = packagesAt load' k.package)
    (h : ∀ source ∈ packagesAt load k.package, source.SeesAlike load load') :
    (typeTable load).get? k = (typeTable load').get? k := by
  have hdeclarations : (packagesAt load k.package).flatMap (·.declarations load) =
      (packagesAt load' k.package).flatMap (·.declarations load') := by
    rw [← hat]
    exact List.flatMap_congr fun source hs => (h source hs).declarations_eq
  have hmethods : (packagesAt load k.package).flatMap (·.methods load) =
      (packagesAt load' k.package).flatMap (·.methods load') := by
    rw [← hat]
    exact List.flatMap_congr fun source hs => (h source hs).methods_eq
  rw [get?_typeTable, get?_typeTable, filter_declarations_eq, filter_declarations_eq load',
    methodsOn_receivedMethods, methodsOn_receivedMethods load', hdeclarations, hmethods]

end Alike

/-! ## A package that nothing relates to -/

/-- The path of the package is that of no other, and no file of another imports it. -/
structure SourcePackage.IsUnrelatedTo (other : SourcePackage) (sources : List SourcePackage) :
    Prop where
  path_ne : other.path ≠ ""
  paths : ∀ source ∈ sources, source.path ≠ other.path
  imports : ∀ source ∈ sources, ∀ file ∈ source.sources, ∀ spec ∈ file.imports,
    spec.path ≠ other.path

section Insert

variable {before after : List SourcePackage} {other source : SourcePackage}

theorem packagesAt_insert {path : String} (h : path ≠ other.path) :
    packagesAt (before ++ other :: after) path = packagesAt (before ++ after) path := by
  simp [packagesAt, h.symm]

namespace SourcePackage.IsUnrelatedTo

variable {k : TypeKey} {d : Declaration}

theorem seesAlike (h : other.IsUnrelatedTo (before ++ after)) (hs : source ∈ before ++ after) :
    source.SeesAlike (before ++ after) (before ++ other :: after) where
  own := by rw [loadedAt_eq, loadedAt_eq, packagesAt_insert (h.paths source hs)]
  imports := fun file hfile spec hspec => by
    rw [loadedAt_eq, loadedAt_eq, packagesAt_insert (h.imports source hs file hfile spec hspec)]

theorem get?_typeTable (h : other.IsUnrelatedTo (before ++ after)) (hk : k.package ≠ other.path) :
    (typeTable (before ++ after)).get? k = (typeTable (before ++ other :: after)).get? k :=
  get?_typeTable_eq (packagesAt_insert hk).symm fun _ hs => h.seesAlike (mem_packagesAt.1 hs).1

theorem path_ne_of_refers {sources : List SourcePackage} (h : other.IsUnrelatedTo sources)
    (hd : (typeTable sources).get? k = some d) {p : PackageRef} {name : String}
    (hrefers : d.rhs.Refers p name) : p.path ≠ other.path := by
  rcases typeTable_cases hd with ⟨source, file, spec, hwritten⟩ | herror
  · obtain ⟨e, q, -, hdenotes, hpath⟩ := hwritten.denotes hrefers
    rw [← hpath]
    rcases hdenotes.path_eq rfl with hown | ⟨i, hi, himport⟩
    · exact hown ▸ h.paths source hwritten.mem_load
    · exact himport ▸ h.imports source hwritten.mem_load file hwritten.mem_sources i hi
  · have hrhs := congrArg Declaration.rhs herror
    simp only at hrhs
    exact absurd (hrhs ▸ hrefers) Declaration.not_refers_error

end SourcePackage.IsUnrelatedTo

end Insert

end ResetMethods
