import ResetMethods.Proofs.Types.Faithful
import ResetMethods.Reset.MethodSet

/-!
# ResetMethods.Proofs.Types.Receivers

Receivers, and the types that have the methods.

* `TypeTable.BaseType`: the defined type that a receiver name denotes, itself or through aliases of
  its package.
* `SourcePackage.Receives`: some function of a package has the receiver and stands for the method.
* `methods_eq_methodsFor`: a type has the methods whose receivers are written with its own name.
* `BaseType.declaration_eq`: these are the methods that are looked at for it.
* `attached_iff`: so a method of a receiver is among them if and only if it is written with the own
  name of the type too, and then `Reset()` is found.
* `aliased_receiver_missed`: a receiver that is written with the name of an alias.
-/

namespace ResetMethods

/-- In a package the name denotes the defined type, or it is an alias without type parameters of a
name of the package that denotes it. -/
inductive TypeTable.BaseType (t : TypeTable) (package : String) : String → Declaration → Prop where
  | defined {name : String} {d : Declaration} :
      t.get? ⟨package, name⟩ = some d → d.isAlias = false → BaseType t package name d
  | aliased {name next : String} {a d : Declaration} {p : PackageRef} {args : List Ty} :
      t.get? ⟨package, name⟩ = some a → a.isAlias = true → a.typeParams = [] →
      a.rhs = .named ⟨some p, next, args⟩ → p.path = package → BaseType t package next d →
      BaseType t package name d

/-- Some function that a file of the package declares with the receiver stands for the method. -/
def SourcePackage.Receives (load : List SourcePackage) (source : SourcePackage)
    (receiver : Receiver) (method : Method) : Prop :=
  ∃ file ∈ source.sources, ∃ decl ∈ file.functions, decl.receiver = some receiver ∧
    method = ⟨decl.name, receiver.pointer,
      decl.signature.resolve (Scope.ofFile load source.ref file)⟩

section Attach

variable {load : List SourcePackage} {source : SourcePackage} {name : String} {d : Declaration}

theorem mem_methodsFor_iff {method : Method} : method ∈ source.methodsFor load name ↔
    ∃ receiver, receiver.typeName = name ∧ source.Receives load receiver method := by
  constructor
  · intro h
    obtain ⟨file, hfile, h⟩ := List.mem_flatMap.1 h
    obtain ⟨decl, hdecl, h⟩ := List.mem_filterMap.1 h
    obtain ⟨receiver, hreceiver, rfl⟩ := Option.map_eq_some_iff.1 h
    obtain ⟨hreceiver, hname⟩ := Option.filter_eq_some_iff.1 hreceiver
    exact ⟨receiver, of_decide_eq_true hname, file, hfile, decl, hdecl, hreceiver, rfl⟩
  · rintro ⟨receiver, hname, file, hfile, decl, hdecl, hreceiver, rfl⟩
    refine List.mem_flatMap.2 ⟨file, hfile, List.mem_filterMap.2 ⟨decl, hdecl, ?_⟩⟩
    refine Option.map_eq_some_iff.2 ⟨receiver, ?_, rfl⟩
    rw [hreceiver]
    exact Option.filter_some_pos (by simp [hname])

/-- A type of a package at a path of its own has the methods whose receivers are written with its
name. -/
theorem methods_eq_methodsFor (hpaths : (load.map (·.path)).Nodup) (hsource : source ∈ load)
    (h : (typeTable load).get? ⟨source.path, name⟩ = some d) :
    d.methods = source.methodsFor load name := by
  obtain ⟨e, rfl, -, hnone, -⟩ := exists_of_get?_typeTable h
  rw [Declaration.withMethods, hnone, List.nil_append, methodsOn_receivedMethods,
    packagesAt_of_mem hpaths hsource, List.flatMap_singleton]
  exact methodsOn_methods load source name

namespace TypeTable.BaseType

variable {t : TypeTable} {package : String}

theorem get?_eq (hkey : ∀ k d, t.get? k = some d → d.key = k) (h : t.BaseType package name d) :
    t.get? ⟨package, d.name⟩ = some d ∧ d.isAlias = false := by
  induction h with
  | @defined name d hget hdefined =>
    have hname : d.name = name := congrArg TypeKey.name (hkey _ _ hget)
    rw [hname]
    exact ⟨hget, hdefined⟩
  | aliased _ _ _ _ _ _ ih => exact ih

/-- The name of a defined type leads to its declaration at once, with any type arguments. -/
theorem declaration_eq (hkey : ∀ k d, t.get? k = some d → d.key = k)
    (h : t.BaseType package name d) {p : PackageRef} (hp : p.path = package) (args : List Ty) :
    t.declaration (.named ⟨some p, d.name, args⟩) = some d := by
  obtain ⟨hget, hdefined⟩ := h.get?_eq hkey
  have hlookup : t.lookup ⟨some p, d.name, args⟩ = some d := by
    rw [lookup, Named.key, Option.map_some, Option.getD_some, hp]
    exact hget
  have hunalias : t.unalias (.named ⟨some p, d.name, args⟩) =
      some (.named ⟨some p, d.name, args⟩) := by
    simp [unalias, chainLimit, unaliasWithin, hlookup, hdefined]
  simp only [declaration, hunalias, hlookup]

end TypeTable.BaseType

theorem Surroundings.hasReset_of_mem {s : Surroundings} {ty : Ty} {m : Method}
    (hd : s.table.declaration ty = some d) (hm : m ∈ d.methods) (hreset : m.isReset = true) :
    s.hasReset ty = true := by
  have hany : d.methods.any (·.isReset) = true := List.any_eq_true.2 ⟨m, hm, hreset⟩
  simp [hasReset, hasResetWithin, hd, hany]

/-- The type that a receiver denotes has the methods, in order, whose receivers are written with the
name of the type itself. So the method of the receiver is among them if and only if it is written
with that name, here or elsewhere in the package; `Reset()` is then found on the type, whatever else
is about to get a method. -/
theorem attached_iff (hpaths : (load.map (·.path)).Nodup) (hsource : source ∈ load)
    {receiver : Receiver} {method : Method} (hmethod : source.Receives load receiver method)
    (hbase : (resolve load).table.BaseType source.path receiver.typeName d) (args : List Ty) :
    let table := (resolve load).table
    let base := Ty.named ⟨some source.ref, d.name, args⟩
    table.declaration base = some d ∧ d.methods = source.methodsFor load d.name ∧
      (method ∈ d.methods ↔ receiver.typeName = d.name ∨
        ∃ other, other ≠ receiver ∧ other.typeName = d.name ∧ source.Receives load other method) ∧
      (method ∈ d.methods → method.isReset = true →
        ∀ pending, Surroundings.hasReset ⟨table, pending⟩ base = true) := by
  intro table base
  have hdeclaration : table.declaration base = some d :=
    hbase.declaration_eq (fun _ _ => key_of_typeTable) rfl args
  have hmethods : d.methods = source.methodsFor load d.name :=
    methods_eq_methodsFor hpaths hsource (hbase.get?_eq fun _ _ => key_of_typeTable).1
  refine ⟨hdeclaration, hmethods, ?_, ?_⟩
  · rw [hmethods, mem_methodsFor_iff]
    constructor
    · rintro ⟨other, hname, hother⟩
      by_cases hsame : other = receiver
      · exact .inl (hsame ▸ hname)
      · exact .inr ⟨other, hsame, hname, hother⟩
    · rintro (hname | ⟨other, -, hname, hother⟩)
      · exact ⟨receiver, hname, hmethod⟩
      · exact ⟨other, hname, hother⟩
  · intro hmem hreset pending
    exact Surroundings.hasReset_of_mem (s := ⟨table, pending⟩) hdeclaration hmem hreset

end Attach

/-! ## Receivers of one type under two names -/

namespace BufferNames

/-- A method without parameters and results whose receiver is a pointer to the type of the name. -/
def method (receiver name : String) : FuncDecl := ⟨some ⟨receiver, true⟩, name, ⟨[], [], false⟩⟩

/-- `Buf` is an alias of `Buffer`. One method has a receiver of either name. -/
def file : SourceFile :=
  ⟨"/model/model.go", "model", [],
    [.types ⟨none, false, [⟨none, "Buffer", [], false, .struct [⟨["N"], .ident "int", none⟩], 3⟩]⟩,
      .types ⟨none, false, [⟨none, "Buf", [], true, .ident "Buffer", 7⟩]⟩,
      .function (method "Buf" "Reset"), .function (method "Buffer" "Flush")]⟩

def source : SourcePackage := ⟨"model", "example.com/model", "/model", [file.path], [file]⟩

def buffer : Ty := .named ⟨some source.ref, "Buffer", []⟩

/-- `Buffer` as it stands in the table. -/
def declaration : Declaration :=
  ⟨some source.ref, "Buffer", [], false,
    .struct [⟨"N", .basic .int, false, none, "example.com/model"⟩], [⟨"Flush", true, ⟨[], [], false⟩⟩]⟩

theorem baseType : (resolve [source]).table.BaseType source.path "Buf" declaration := by
  have hbuffer : (resolve [source]).table.BaseType source.path "Buffer" declaration :=
    .defined rfl rfl
  exact .aliased (a := ⟨some source.ref, "Buf", [], true, buffer, [⟨"Reset", true, ⟨[], [], false⟩⟩]⟩)
    rfl rfl rfl rfl rfl hbuffer

theorem receives : source.Receives [source] ⟨"Buf", true⟩ ⟨"Reset", true, ⟨[], [], false⟩⟩ :=
  ⟨file, List.mem_singleton_self _, method "Buf" "Reset", List.mem_cons_self, rfl, rfl⟩

end BufferNames

theorem attached_iff_aliased :
    let table := (resolve [BufferNames.source]).table
    let reset : Method := ⟨"Reset", true, ⟨[], [], false⟩⟩
    ([BufferNames.source].map (·.path)).Nodup ∧ BufferNames.source ∈ [BufferNames.source] ∧
      BufferNames.source.Receives [BufferNames.source] ⟨"Buf", true⟩ reset ∧
      table.BaseType BufferNames.source.path "Buf" BufferNames.declaration ∧
      table.declaration BufferNames.buffer = some BufferNames.declaration ∧
      (reset ∈ BufferNames.declaration.methods ↔ "Buf" = "Buffer" ∨
        ∃ other : Receiver, other ≠ ⟨"Buf", true⟩ ∧ other.typeName = "Buffer" ∧
          BufferNames.source.Receives [BufferNames.source] other reset) := by
  intro table reset
  have hpaths : ([BufferNames.source].map (·.path)).Nodup := List.nodup_singleton _
  have hsource : BufferNames.source ∈ [BufferNames.source] := List.mem_singleton_self _
  obtain ⟨hdeclaration, -, hiff, -⟩ :=
    attached_iff hpaths hsource BufferNames.receives BufferNames.baseType []
  exact ⟨hpaths, hsource, BufferNames.receives, BufferNames.baseType, hdeclaration, hiff⟩

/-- The receiver denotes `Buffer`, but its method `Reset()` is not one of `Buffer`. -/
theorem aliased_receiver_missed :
    let table := (resolve [BufferNames.source]).table
    let reset : Method := ⟨"Reset", true, ⟨[], [], false⟩⟩
    BufferNames.source.Receives [BufferNames.source] ⟨"Buf", true⟩ reset ∧
      table.BaseType BufferNames.source.path "Buf" BufferNames.declaration ∧
      table.declaration BufferNames.buffer = some BufferNames.declaration ∧
      reset ∉ BufferNames.declaration.methods ∧
      Surroundings.hasReset ⟨table, []⟩ BufferNames.buffer = false := by
  refine ⟨BufferNames.receives, BufferNames.baseType, rfl, ?_, rfl⟩
  intro hmem
  have hname : "Reset" ∈ BufferNames.declaration.methods.map (·.name) := List.mem_map_of_mem hmem
  simp [BufferNames.declaration] at hname

end ResetMethods
