import ResetMethods.Proofs.Generation.Targets
import ResetMethods.Proofs.Printing.Occurrences

/-!
# ResetMethods.Proofs.Generation.Redeclaration

Generated methods against what is declared already.

* `LoadedPackage.RedeclaresNothing`: each type gets one method at most, and only where it has
  neither a method nor a field of the name `Reset`.
* `SourcePackage.LeavesRoom`: the same of the sources of a type.
* `SourcePackage.redeclaresNothing_iff`: the methods of a package redeclare nothing exactly when the
  sources leave room for each of them. The generator looks at the directive only.
* `Twice`: a type that two files of a package declare, a type with a method `Reset`, and one with
  such a field. Four methods are generated.
-/

namespace ResetMethods

/-- No two methods are for one type, and none is for a type with a method or a field `Reset`. -/
structure LoadedPackage.RedeclaresNothing (package : LoadedPackage) (s : Surroundings) : Prop where
  once : ((package.methods s).map (·.typeName)).Nodup
  methods : ∀ m ∈ package.methods s, ∀ d, s.table.get? ⟨package.source.path, m.typeName⟩ = some d →
    ∀ method ∈ d.methods, method.name ≠ "Reset"
  fields : ∀ m ∈ package.methods s, ∀ d, s.table.get? ⟨package.source.path, m.typeName⟩ = some d →
    ∀ fields, s.table.underlying d.rhs = some (.struct fields) → ∀ f ∈ fields, f.name ≠ "Reset"

def FieldDecl.fieldNames (group : FieldDecl TypeExpr) : List String :=
  if group.names.isEmpty then [group.type.embeddedName?.getD ""] else group.names

theorem TypeExpr.names_resolveFields (scope : Scope) (groups : List (FieldDecl TypeExpr)) :
    (resolveFields scope groups).map (·.name) = groups.flatMap (·.fieldNames) := by
  induction groups with
  | nil => rfl
  | cons group rest ih =>
    obtain ⟨names, type, tag⟩ := group
    rw [resolveFields, List.map_append, ih, List.flatMap_cons, FieldDecl.resolve,
      FieldDecl.fieldNames]
    cases names with
    | nil => rfl
    | cons name names => simp [Function.comp_def]

theorem TypeExpr.exists_struct_of_resolve_eq {scope : Scope} {e : TypeExpr} {fields : List (Field Ty)}
    (h : e.resolve scope = .struct fields) : ∃ groups, e = .struct groups := by
  rcases means_resolve scope e with hliteral | hmeans
  · cases e with
    | struct groups => exact ⟨groups, rfl⟩
    | _ => first | cases h | cases hliteral
  · rw [h] at hmeans
    cases hmeans

/-- The declaration in whose right-hand side the walk from a declared type ends. -/
def TypeTable.EndsIn (t : TypeTable) (k : TypeKey) (owner : Declaration) : Prop :=
  ∃ d ty, t.get? k = some d ∧ t.literal d.whole = some ⟨owner, ty⟩

/-- The sources of a load leave room for one method `Reset` of a type of the package: the package
has one target of that name, no file of it declares the method, and the struct type has no such
field where it is written. -/
structure SourcePackage.LeavesRoom (load : List SourcePackage) (source : SourcePackage)
    (name : String) : Prop where
  target : ((targets source.sources).map (·.name)).count name = 1
  functions : ∀ other ∈ load, other.path = source.path → ∀ file ∈ other.sources,
    ∀ decl ∈ file.functions, decl.name = "Reset" →
      ∀ receiver, decl.receiver = some receiver → receiver.typeName ≠ name
  fields : ∀ owner, (typeTable load).EndsIn ⟨source.path, name⟩ owner →
    ∀ other file spec, owner.IsWritten load other file spec →
      ∀ groups, spec.type = .struct groups → ∀ group ∈ groups, "Reset" ∉ group.fieldNames

section Room

variable {load : List SourcePackage} {source : SourcePackage} {name : String} {d : Declaration}

/-- A declared type has a method of a name exactly when a file of its package declares it. -/
theorem exists_method_iff (hd : (typeTable load).get? ⟨source.path, name⟩ = some d) {ident : String} :
    (∃ method ∈ d.methods, method.name = ident) ↔
      ∃ other ∈ load, other.path = source.path ∧ ∃ file ∈ other.sources, ∃ decl ∈ file.functions,
        decl.name = ident ∧ ∃ receiver, decl.receiver = some receiver ∧ receiver.typeName = name := by
  simp only [mem_methods_iff hd]
  constructor
  · rintro ⟨method, hm, rfl⟩
    obtain ⟨other, hother, file, hfile, decl, hdecl, receiver, hreceiver, hkey, hname⟩ :=
      mem_receivedMethods hm
    obtain ⟨hpath, htype⟩ := TypeKey.mk.inj hkey
    exact ⟨other, hother, hpath.symm, file, hfile, decl, hdecl, hname.symm, receiver, hreceiver,
      htype.symm⟩
  · rintro ⟨other, hother, hpath, file, hfile, decl, hdecl, rfl, receiver, hreceiver, rfl⟩
    obtain ⟨m, hm, hname⟩ := exists_receivedMethod hother hfile hdecl hreceiver
    rw [hpath] at hm
    exact ⟨m, hm, hname⟩

/-- A struct type ends at a struct type that is written in a file, with fields of the same names. -/
theorem exists_written_struct (hd : (typeTable load).get? ⟨source.path, name⟩ = some d)
    {fields : List (Field Ty)} (hu : (typeTable load).underlying d.rhs = some (.struct fields)) :
    ∃ owner, (typeTable load).literal d.whole = some ⟨owner, .struct fields⟩ ∧
      owner.rhs = .struct fields ∧ ∃ other file spec, owner.IsWritten load other file spec := by
  have hliteral := (typeTable load).type_literal d.whole
  rw [show d.whole.type = d.rhs from rfl, hu] at hliteral
  obtain ⟨⟨owner, ty⟩, hend, rfl⟩ := Option.map_eq_some_iff.1 hliteral
  have hlookup : (typeTable load).lookup ⟨some source.ref, name, []⟩ = some d := hd
  obtain ⟨⟨n, hn⟩, hrhs⟩ := TypeTable.literal_whole hlookup hend
  refine ⟨owner, hend, hrhs.symm, ?_⟩
  rcases typeTable_cases hn with hwritten | herror
  · exact hwritten
  · have hinterface := congrArg Declaration.rhs herror
    cases hrhs.trans hinterface

/-- A declared struct type has the fields that are written where its walk ends. -/
theorem exists_field_iff (hd : (typeTable load).get? ⟨source.path, name⟩ = some d)
    {fields : List (Field Ty)} (hu : (typeTable load).underlying d.rhs = some (.struct fields))
    {ident : String} :
    (∃ f ∈ fields, f.name = ident) ↔
      ∃ owner, (typeTable load).EndsIn ⟨source.path, name⟩ owner ∧ ∃ other file spec,
        owner.IsWritten load other file spec ∧ ∃ groups, spec.type = .struct groups ∧
          ∃ group ∈ groups, ident ∈ group.fieldNames := by
  obtain ⟨owner, hend, hrhs, hwritten⟩ := exists_written_struct hd hu
  have hnames : ∀ {other file spec}, owner.IsWritten load other file spec → ∀ groups,
      spec.type = .struct groups →
        fields.map (·.name) = groups.flatMap (·.fieldNames) := by
    intro other file spec hwritten groups hgroups
    rw [hwritten.rhs_eq, hgroups, TypeExpr.resolve, Ty.struct.injEq] at hrhs
    rw [← hrhs, TypeExpr.names_resolveFields]
  constructor
  · rintro ⟨f, hf, rfl⟩
    obtain ⟨other, file, spec, hwritten⟩ := hwritten
    obtain ⟨groups, hgroups⟩ := TypeExpr.exists_struct_of_resolve_eq (hwritten.rhs_eq.symm.trans hrhs)
    have hmem := List.mem_map_of_mem (f := Field.name) hf
    rw [hnames hwritten groups hgroups] at hmem
    obtain ⟨group, hgroup, hmem⟩ := List.mem_flatMap.1 hmem
    exact ⟨owner, ⟨d, _, hd, hend⟩, other, file, spec, hwritten, groups, hgroups, group, hgroup, hmem⟩
  · rintro ⟨owner', ⟨d', ty, hd', hend'⟩, other, file, spec, hwritten, groups, hgroups, group, hgroup,
      hmem⟩
    obtain rfl := Option.some.inj (hd.symm.trans hd')
    cases hend.symm.trans hend'
    have hmem : ident ∈ fields.map (·.name) := by
      rw [hnames hwritten groups hgroups]
      exact List.mem_flatMap.2 ⟨group, hgroup, hmem⟩
    exact List.mem_map.1 hmem

end Room

/-- The methods of a package redeclare nothing exactly when the sources leave room for each of them:
one target a type, no hand-written method, no field of the name. -/
theorem SourcePackage.redeclaresNothing_iff (sources : List SourcePackage) (source : SourcePackage) :
    let s := (Load.ofSources sources).surroundings
    let package : LoadedPackage := ⟨source, source.definitions⟩
    package.RedeclaresNothing s ↔
      ∀ m ∈ package.methods s, source.LeavesRoom sources m.typeName := by
  intro s package
  -- each method is for the type of the name that it has
  have hgives : ∀ m ∈ package.methods s, package.Gives s m.typeName m := by
    intro m hm
    obtain ⟨target, -, hm⟩ := LoadedPackage.mem_methods_iff.1 hm
    rw [typeName_of_gives hm]
    exact hm
  have hcount : ∀ m ∈ package.methods s,
      ((package.methods s).map (·.typeName)).count m.typeName =
        ((targets source.sources).map (·.name)).count m.typeName :=
    fun m hm => LoadedPackage.count_typeName (fun _ _ => typeName_of_gives) (hgives m hm)
  have honce : ((package.methods s).map (·.typeName)).Nodup ↔
      ∀ m ∈ package.methods s, ((targets source.sources).map (·.name)).count m.typeName = 1 := by
    rw [List.nodup_iff_count_eq_one, List.forall_mem_map]
    exact forall₂_congr fun m hm => by rw [hcount m hm]
  constructor
  · rintro ⟨hnodup, hmethods, hfields⟩ m hm
    obtain ⟨-, d, fields, hd, -, hu, -⟩ := gives_iff.1 (hgives m hm)
    refine ⟨honce.1 hnodup m hm, ?_, ?_⟩
    · intro other hother hpath file hfile decl hdecl hname receiver hreceiver htype
      obtain ⟨method, hmethod, hreset⟩ := (exists_method_iff hd).2
        ⟨other, hother, hpath, file, hfile, decl, hdecl, hname, receiver, hreceiver, htype⟩
      exact hmethods m hm d hd method hmethod hreset
    · intro owner hend other file spec hwritten groups hgroups group hgroup hmem
      obtain ⟨f, hf, hreset⟩ := (exists_field_iff hd hu).2
        ⟨owner, hend, other, file, spec, hwritten, groups, hgroups, group, hgroup, hmem⟩
      exact hfields m hm d hd fields hu f hf hreset
  · intro hroom
    refine ⟨honce.2 fun m hm => (hroom m hm).target, ?_, ?_⟩
    · intro m hm d hd method hmethod hreset
      obtain ⟨other, hother, hpath, file, hfile, decl, hdecl, hname, receiver, hreceiver, htype⟩ :=
        (exists_method_iff hd).1 ⟨method, hmethod, hreset⟩
      exact (hroom m hm).functions other hother hpath file hfile decl hdecl hname receiver hreceiver
        htype
    · intro m hm d hd fields hu f hf hreset
      obtain ⟨owner, hend, other, file, spec, hwritten, groups, hgroups, group, hgroup, hmem⟩ :=
        (exists_field_iff hd hu).1 ⟨f, hf, hreset⟩
      exact (hroom m hm).fields owner hend other file spec hwritten groups hgroups group hgroup hmem

/-! ## Types without room -/

namespace Twice

def size (field : String) : TypeExpr := .struct [⟨[field], .ident "int", none⟩]

def marked (name field : String) (line : Nat) : Decl :=
  .types ⟨some ⟨[directive]⟩, false, [⟨none, name, [], false, size field, line⟩]⟩

def unixFile : SourceFile :=
  ⟨"/model/buffer_unix.go", "model", [], [marked "Buffer" "Size" 6]⟩

def windowsFile : SourceFile :=
  ⟨"/model/buffer_windows.go", "model", [],
    [marked "Buffer" "Size" 6, marked "Sample" "N" 11,
      .function ⟨some ⟨"Sample", true⟩, "Reset", ⟨[], [], false⟩⟩, marked "Latch" "Reset" 18]⟩

def source : SourcePackage :=
  ⟨"model", "example.com/app/model", "/model", ["/model/buffer_unix.go", "/model/buffer_windows.go"],
    [unixFile, windowsFile]⟩

def load : Load := .ofSources [source]

def package : LoadedPackage := ⟨source, source.definitions⟩

theorem typeNames_eq : (package.methods load.surroundings).map (·.typeName) =
    ["Buffer", "Buffer", "Sample", "Latch"] := by
  rfl

def sample : Declaration :=
  ⟨some source.ref, "Sample", [], false, .struct [⟨"N", .basic .int, false, none, source.path⟩],
    [⟨"Reset", true, ⟨[], [], false⟩⟩]⟩

theorem get?_sample : load.table.get? ⟨source.path, "Sample"⟩ = some sample := by rfl

def latch : Declaration :=
  ⟨some source.ref, "Latch", [], false,
    .struct [⟨"Reset", .basic .int, false, none, source.path⟩], []⟩

theorem get?_latch : load.table.get? ⟨source.path, "Latch"⟩ = some latch := by rfl

theorem exists_method_for (name : String) (h : name ∈ ["Buffer", "Buffer", "Sample", "Latch"]) :
    ∃ m ∈ package.methods load.surroundings, m.typeName = name := by
  rw [← typeNames_eq] at h
  exact List.mem_map.1 h

end Twice

/-- `Buffer` gets two methods, `Sample` one besides its own, and `Latch` one besides its field. -/
theorem LoadedPackage.redeclared :
    let s := Twice.load.surroundings
    Twice.package ∈ Twice.load.packages ∧
      ¬ ((Twice.package.methods s).map (·.typeName)).Nodup ∧
      (∃ m ∈ Twice.package.methods s, ∃ d, s.table.get? ⟨Twice.source.path, m.typeName⟩ = some d ∧
        ∃ method ∈ d.methods, method.name = "Reset") ∧
      ∃ m ∈ Twice.package.methods s, ∃ d, s.table.get? ⟨Twice.source.path, m.typeName⟩ = some d ∧
        ∃ fields, s.table.underlying d.rhs = some (.struct fields) ∧
          ∃ f ∈ fields, f.name = "Reset" := by
  intro s
  refine ⟨List.mem_cons_self, ?_, ?_, ?_⟩
  · rw [Twice.typeNames_eq]
    decide
  · obtain ⟨m, hm, hname⟩ := Twice.exists_method_for "Sample" (by decide)
    exact ⟨m, hm, Twice.sample, hname ▸ Twice.get?_sample, _, List.mem_cons_self, rfl⟩
  · obtain ⟨m, hm, hname⟩ := Twice.exists_method_for "Latch" (by decide)
    exact ⟨m, hm, Twice.latch, hname ▸ Twice.get?_latch, _, rfl, _, List.mem_cons_self, rfl⟩

end ResetMethods
