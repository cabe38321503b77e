import Mathlib.Data.List.Nodup
import ResetMethods.Proofs.Types.Scopes

/-!
# ResetMethods.Proofs.Types.Faithful

Resolution loses nothing and invents nothing.

* `SourcePackage.entries`: what the table is to hold of the types of a package, as they are written.
* `typeTable_perm`: where packages have paths of their own and declare each type once, the table holds
  that of all packages, and the predeclared `error`.
* `TypeExpr.IsClosed`: what an expression names without a qualifier is declared.
* `SourceFile.Writes`: the type expressions of a file, with what names mean in them.
  `Writes.isClosed`: each of them is closed.
* `resolve_faithful`: both for the table of a load.
-/

namespace ResetMethods

/-! ## The declarations of a load -/

/-- The methods that the files of a package declare for the type of a name, in order. -/
def SourcePackage.methodsFor (load : List SourcePackage) (source : SourcePackage) (name : String) :
    List Method :=
  source.sources.flatMap fun file => file.functions.filterMap fun decl =>
    (decl.receiver.filter (·.typeName = name)).map fun receiver =>
      ⟨decl.name, receiver.pointer, decl.signature.resolve (Scope.ofFile load source.ref file)⟩

/-- The declarations that the files of a package hold, with their methods and under their keys. -/
def SourcePackage.entries (load : List SourcePackage) (source : SourcePackage) :
    List (TypeKey × Declaration) :=
  source.sources.flatMap fun file => file.typeSpecs.map fun spec =>
    (⟨source.path, spec.name⟩,
      { package := some source.ref
        name := spec.name
        typeParams := spec.typeParams
        isAlias := spec.isAlias
        rhs := spec.type.resolve (spec.scope load source file)
        methods := source.methodsFor load spec.name })

section Entries

variable {load : List SourcePackage} {source : SourcePackage}

theorem methodsOn_methods (load : List SourcePackage) (source : SourcePackage) (name : String) :
    methodsOn (source.methods load) ⟨source.path, name⟩ = source.methodsFor load name := by
  rw [methodsOn, SourcePackage.methods, List.filter_flatMap, List.map_flatMap,
    SourcePackage.methodsFor]
  refine List.flatMap_congr fun file _ => ?_
  rw [List.filter_filterMap, List.map_filterMap]
  refine List.filterMap_congr fun decl _ => ?_
  cases hreceiver : decl.receiver with
  | none => simp [FuncDecl.received?, hreceiver]
  | some receiver =>
    have hreceived : decl.received? (Scope.ofFile load source.ref file) =
        some ⟨⟨source.path, receiver.typeName⟩, ⟨decl.name, receiver.pointer,
          decl.signature.resolve (Scope.ofFile load source.ref file)⟩⟩ := by
      rw [FuncDecl.received?, hreceiver]
      rfl
    rw [hreceived]
    by_cases hname : receiver.typeName = name
    · rw [Option.filter_some_pos (by simp [hname]), Option.filter_some_pos (by simp [hname])]
      rfl
    · rw [Option.filter_some_neg (by simp [hname]), Option.filter_some_neg (by simp [hname])]
      rfl

theorem entries_eq (load : List SourcePackage) (source : SourcePackage) :
    source.entries load = (source.declarations load).map fun d =>
      (d.key, d.withMethods (methodsOn (source.methods load) d.key)) := by
  rw [SourcePackage.entries, SourcePackage.declarations, List.map_flatMap]
  refine List.flatMap_congr fun file _ => ?_
  rw [List.map_map]
  refine List.map_congr_left fun spec _ => ?_
  have hmethods := methodsOn_methods load source spec.name
  rw [← hmethods]
  rfl

theorem keys_entries (load : List SourcePackage) (source : SourcePackage) :
    (source.entries load).map (·.1) =
      (source.typeSpecs.map (·.name)).map (TypeKey.mk source.path) := by
  rw [entries_eq, List.map_map, ← keys_declarations]
  rfl

theorem package_of_mem_entries {e : TypeKey × Declaration} (h : e ∈ source.entries load) :
    e.1.package = source.path := by
  have hkey := List.mem_map_of_mem (f := Prod.fst) h
  rw [keys_entries] at hkey
  obtain ⟨name, -, heq⟩ := List.mem_map.1 hkey
  exact (congrArg TypeKey.package heq).symm

theorem nodup_keys_entries (hpaths : (load.map (·.path)).Nodup)
    (honce : ∀ source ∈ load, (source.typeSpecs.map (·.name)).Nodup) :
    ((load.flatMap (·.entries load)).map (·.1)).Nodup := by
  rw [List.map_flatMap, List.nodup_flatMap]
  constructor
  · intro source hsource
    rw [keys_entries]
    exact (honce source hsource).map fun _ _ h => (TypeKey.mk.inj h).2
  · refine (List.pairwise_map.1 hpaths).imp fun {first second} hne => List.disjoint_left.2 ?_
    intro k hfirst hsecond
    obtain ⟨e, he, rfl⟩ := List.mem_map.1 hfirst
    obtain ⟨e', he', heq⟩ := List.mem_map.1 hsecond
    rw [← package_of_mem_entries he, ← package_of_mem_entries he', heq] at hne
    exact hne rfl

/-- No package at the empty path: the predeclared `error` stays as it is. -/
theorem get?_typeTable_error (hne : ∀ source ∈ load, source.path ≠ "") :
    (typeTable load).get? Declaration.error.key = some .error := by
  have hnone : packagesAt load Declaration.error.key.package = [] := by
    refine List.filter_eq_nil_iff.2 fun source hsource hpath => ?_
    exact hne source hsource (of_decide_eq_true hpath)
  rw [get?_typeTable, filter_declarations_eq, methodsOn_receivedMethods, hnone]
  rfl

/-- Where the packages have paths of their own, none of them empty, and declare each type once, the
table holds the predeclared `error` and one declaration for each type that is written. -/
theorem typeTable_perm (hpaths : (load.map (·.path)).Nodup)
    (hne : ∀ source ∈ load, source.path ≠ "")
    (honce : ∀ source ∈ load, (source.typeSpecs.map (·.name)).Nodup) :
    (typeTable load).toList.Perm
      ((Declaration.error.key, .error) :: load.flatMap (·.entries load)) := by
  have hnodup : ((Declaration.error.key, Declaration.error) ::
      load.flatMap (·.entries load)).Nodup := by
    refine List.nodup_cons.2 ⟨?_, (nodup_keys_entries hpaths honce).of_map⟩
    intro h
    obtain ⟨source, hsource, h⟩ := List.mem_flatMap.1 h
    exact hne source hsource (package_of_mem_entries h).symm
  have hat : ∀ source ∈ load, ∀ d ∈ source.declarations load, (typeTable load).get? d.key =
      some (d.withMethods (methodsOn (source.methods load) d.key)) := by
    intro source hsource d hd
    exact get?_typeTable_of_mem hpaths hsource hd
      (List.nodup_iff_count_le_one.1 (honce source hsource) d.name)
  refine (List.perm_ext_iff_of_nodup (Dict.nodup_of_sorted (typeTable load).sorted) hnodup).2 ?_
  rintro ⟨k, d⟩
  rw [Dict.mem_entries_iff, List.mem_cons, List.mem_flatMap]
  constructor
  · intro h
    obtain ⟨e, -, hkey, -, rfl | ⟨source, hsource, he⟩⟩ := exists_of_get?_typeTable h
    · left
      rw [← hkey, get?_typeTable_error hne] at h
      rw [← hkey, Option.some.inj h]
    · right
      rw [← hkey, hat source hsource e he] at h
      refine ⟨source, hsource, ?_⟩
      rw [entries_eq, ← hkey, ← Option.some.inj h]
      exact List.mem_map_of_mem he
  · rintro (h | ⟨source, hsource, h⟩)
    · obtain ⟨rfl, rfl⟩ := Prod.mk.inj h
      exact get?_typeTable_error hne
    · rw [entries_eq] at h
      obtain ⟨e, he, heq⟩ := List.mem_map.1 h
      obtain ⟨rfl, rfl⟩ := Prod.mk.inj heq
      exact hat source hsource e he

end Entries

/-! ## Names -/

/-- What an expression applies to arguments, if it does. -/
def TypeExpr.head : TypeExpr → TypeExpr
  | .generic base _ => base.head
  | e => e

/-- Each named type in what the expression denotes is what some part of it denotes, a name with or
without a qualifier. Where such a part is without a qualifier, the type is declared. -/
structure TypeExpr.IsClosed (e : TypeExpr) (scope : Scope) (table : TypeTable) : Prop where
  origin : ∀ n, (e.resolve scope).Mentions (.named n) →
    ∃ part, e.Mentions part ∧ part.resolve scope = .named n ∧
      ∃ name, part.head = .ident name ∨ ∃ qualifier, part.head = .qualified qualifier name
  declared : ∀ part, e.Mentions part → ∀ name, part.head = .ident name →
    ∀ n, part.resolve scope = .named n → ∃ d, table.lookup n = some d

section Names

variable {load : List SourcePackage} {source : SourcePackage} {scope : Scope}

theorem exists_get?_typeTable_of_mem (hsource : source ∈ load) {spec : TypeSpec}
    (hspec : spec ∈ source.typeSpecs) :
    ∃ d, (typeTable load).get? ⟨source.path, spec.name⟩ = some d := by
  have hkey : (⟨source.path, spec.name⟩ : TypeKey) ∈ (source.declarations load).map (·.key) := by
    rw [keys_declarations]
    exact List.mem_map_of_mem (List.mem_map_of_mem hspec)
  obtain ⟨d, hd, hkey⟩ := List.mem_map.1 hkey
  have hmem : d ∈ (load.flatMap (·.declarations load)).filter (·.key = ⟨source.path, spec.name⟩) :=
    List.mem_filter.2 ⟨List.mem_flatMap.2 ⟨source, hsource, hd⟩, by simpa using hkey⟩
  obtain ⟨last, hlast⟩ := Option.ne_none_iff_exists'.1
    (mt List.getLast?_eq_none_iff.1 (List.ne_nil_of_mem hmem))
  rw [get?_typeTable, hlast]
  exact ⟨_, rfl⟩

theorem exists_of_declaresType {path name : String} (h : declaresType load path name = true) :
    ∃ d, (typeTable load).get? ⟨path, name⟩ = some d := by
  unfold declaresType at h
  cases hl : loadedAt load path with
  | none => simp [hl] at h
  | some source =>
    rw [hl, Option.any_some, List.any_eq_true] at h
    obtain ⟨spec, hspec, hname⟩ := h
    have hpath : source.path = path := by simpa using List.find?_some hl
    have hsource : source ∈ load := List.mem_reverse.1 (List.mem_of_find?_eq_some hl)
    rw [← hpath, ← beq_iff_eq.1 hname]
    exact exists_get?_typeTable_of_mem hsource hspec

theorem exists_get?_error (load : List SourcePackage) :
    ∃ d, (typeTable load).get? Declaration.error.key = some d := by
  rw [get?_typeTable]
  cases ((load.flatMap (·.declarations load)).filter
    (·.key = Declaration.error.key)).getLast? with
  | none => exact ⟨_, rfl⟩
  | some d => exact ⟨_, rfl⟩

theorem Scope.key_of_predeclared {name : String} {n : Named Ty}
    (h : predeclared? name = some (.named n)) : n.key = Declaration.error.key := by
  unfold predeclared? at h
  split at h
  · cases h
  · split at h
    · cases h
      rfl
    · split at h <;> cases h

/-- A name without a qualifier denotes a type that is declared. -/
theorem Scope.exists_of_ident {name : String} {n : Named Ty} (h : scope.ident name = .named n) :
    ∃ d, (typeTable scope.load).lookup n = some d := by
  unfold ident at h
  split at h
  · cases h
  · split at h
    · rename_i hown
      cases h
      exact exists_of_declaresType hown
    · cases hp : predeclared? name with
      | some ty =>
        rw [hp] at h
        simp only at h
        rw [h] at hp
        rw [TypeTable.lookup, key_of_predeclared hp]
        exact exists_get?_error scope.load
      | none =>
        rw [hp] at h
        simp only at h
        split at h
        · rename_i dot hdot
          cases h
          have hdeclares := List.find?_some hdot
          exact exists_of_declaresType hdeclares
        · cases h

/-- Arguments do not change which declaration is meant. -/
theorem TypeExpr.exists_of_head {e : TypeExpr} {name : String} (hhead : e.head = .ident name)
    {n : Named Ty} (h : e.resolve scope = .named n) :
    ∃ d, (typeTable scope.load).lookup n = some d := by
  match e with
  | .ident _ =>
    cases hhead
    exact Scope.exists_of_ident h
  | .generic base args =>
    rw [resolve] at h
    cases hbase : base.resolve scope with
    | named m =>
      rw [hbase] at h
      cases h
      obtain ⟨d, hd⟩ := exists_of_head (e := base) hhead hbase
      exact ⟨d, hd⟩
    | _ =>
      rw [hbase] at h
      cases h

theorem Scope.Denotes.exists_head {e : TypeExpr} {p? : Option PackageRef} {ident : String}
    (h : scope.Denotes e p? ident) :
    ∃ name, e.head = .ident name ∨ ∃ qualifier, e.head = .qualified qualifier name := by
  induction h with
  | @qualified qualifier name p _ => exact ⟨name, .inr ⟨qualifier, rfl⟩⟩
  | @own name _ => exact ⟨name, .inl rfl⟩
  | @dot name p _ _ => exact ⟨name, .inl rfl⟩
  | @predeclared name => exact ⟨name, .inl rfl⟩
  | applied _ ih => exact ih

theorem TypeExpr.isClosed (e : TypeExpr) (scope : Scope) : e.IsClosed scope (typeTable scope.load) where
  origin := by
    intro n hn
    obtain ⟨part, hpart, hresolve⟩ := mentions_resolve hn
    exact ⟨part, hpart, hresolve.symm, (denotes_of_resolve_eq_named hresolve.symm).exists_head⟩
  declared := fun _ _ _ hhead _ hn => exists_of_head hhead hn

end Names

/-- The type expressions that a file writes at the top: the right-hand sides of its types, and the
parameters and results of its functions. -/
inductive SourceFile.Writes (load : List SourcePackage) (source : SourcePackage) (file : SourceFile) :
    Scope → TypeExpr → Prop where
  | type {spec : TypeSpec} : spec ∈ file.typeSpecs →
      file.Writes load source (spec.scope load source file) spec.type
  | function {decl : FuncDecl} {e : TypeExpr} : decl ∈ file.functions → e ∈ decl.signature.parts →
      file.Writes load source (Scope.ofFile load source.ref file) e

theorem SourceFile.Writes.isClosed {load : List SourcePackage} {source : SourcePackage}
    {file : SourceFile} {scope : Scope} {e : TypeExpr} (h : file.Writes load source scope e) :
    e.IsClosed scope (typeTable load) := by
  cases h with
  | type _ => exact TypeExpr.isClosed _ _
  | function _ _ => exact TypeExpr.isClosed _ _

/-- Resolution loses nothing and invents nothing: the table holds the predeclared `error` and one
declaration for each type that is written, with the methods that its package writes for it, and what
an expression of a file names without a qualifier is declared in it. -/
theorem resolve_faithful {load : List SourcePackage} (hpaths : (load.map (·.path)).Nodup)
    (hne : ∀ source ∈ load, source.path ≠ "")
    (honce : ∀ source ∈ load, (source.typeSpecs.map (·.name)).Nodup) :
    let table := (resolve load).table
    table.toList.Perm ((⟨"", "error"⟩, .error) :: load.flatMap (·.entries load)) ∧
      ∀ source ∈ load, ∀ file ∈ source.sources, ∀ scope e, file.Writes load source scope e →
        e.IsClosed scope table := by
  intro table
  refine ⟨typeTable_perm hpaths hne honce, ?_⟩
  intro source _ file _ scope e h
  exact h.isClosed

/-! ## Two packages with a type of one name -/

namespace Shapes

def nullary : Signature TypeExpr := ⟨[], [], false⟩

/-- A package whose methods come before their type, one of them for a type that is not declared. -/
def grid : SourcePackage :=
  ⟨"grid", "example.com/grid", "/grid", ["/grid/a.go", "/grid/b.go"],
    [⟨"/grid/a.go", "grid", [], [.function ⟨some ⟨"Cell", true⟩, "Reset", nullary⟩,
        .function ⟨some ⟨"Row", false⟩, "Len", ⟨[], [.ident "int"], false⟩⟩]⟩,
      ⟨"/grid/b.go", "grid", [], [.types ⟨none, false,
          [⟨none, "Cell", ["T"], false, .struct [⟨["V"], .ident "T", none⟩], 3⟩]⟩,
        .function ⟨some ⟨"Cell", true⟩, "Err", ⟨[], [.ident "error"], false⟩⟩]⟩]⟩

/-- A package that writes names of the other one without a qualifier. -/
def sheet : SourcePackage :=
  ⟨"sheet", "example.com/sheet", "/sheet", ["/sheet/sheet.go"],
    [⟨"/sheet/sheet.go", "sheet", [⟨some ".", "example.com/grid"⟩],
      [.types ⟨none, false,
        [⟨none, "Sheet", [], true, .slice (.generic (.ident "Cell") [.ident "Sheet"]), 5⟩]⟩]⟩]⟩

example : (grid.methodsFor [grid, sheet] "Cell").map (·.name) = ["Reset", "Err"] := by rfl

example : (sheet.entries [grid, sheet]).map (·.2.rhs) =
    [.slice (.named ⟨some grid.ref, "Cell", [.named ⟨some sheet.ref, "Sheet", []⟩]⟩)] := by rfl

end Shapes

theorem resolve_faithful_shapes :
    let load := [Shapes.grid, Shapes.sheet]
    (load.map (·.path)).Nodup ∧ (∀ source ∈ load, source.path ≠ "") ∧
      (∀ source ∈ load, (source.typeSpecs.map (·.name)).Nodup) ∧
      (resolve load).table.toList.Perm ((⟨"", "error"⟩, .error) :: load.flatMap (·.entries load)) := by
  intro load
  have hpaths : (load.map (·.path)).Nodup := by decide
  have hne : ∀ source ∈ load, source.path ≠ "" := by decide
  have honce : ∀ source ∈ load, (source.typeSpecs.map (·.name)).Nodup := by decide
  exact ⟨hpaths, hne, honce, (resolve_faithful hpaths hne honce).1⟩

end ResetMethods
