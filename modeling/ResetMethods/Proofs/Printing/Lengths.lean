import ResetMethods.Proofs.Imports.Qualified
import ResetMethods.Proofs.Printing.References
import ResetMethods.Source.Token

/-!
# ResetMethods.Proofs.Printing.Lengths

The qualifiers in printed types against the import block.

A name of a type is printed behind an alias that is bound for it. An array length is printed as it
was written, with the qualifiers of the file that it was written in.

* `qualifiedNames`: the qualified identifiers in the text of an array length.
* `Occurrence.Measures`: an array length in a type names a package that its file imports.
* `LoadedPackage.QualifiersImported`: every qualifier in a printed type is an alias that is bound to
  the package that the source means.
* `LoadedPackage.qualifiersImported_iff`: so it is exactly when each package that is named in a
  length is also named by a type, behind the same qualifier.
* `DigestLength`: a field of the type `[sha256.Size]byte`. The method needs `sha256`, and nothing
  imports it.
-/

namespace ResetMethods

/-- The qualified identifiers among some tokens. A name behind a further dot is selected from what
stands before the dot. -/
def qualifiedNames : List TokenKind → List (String × String)
  | [] => []
  | .symbol "." :: .word _ :: rest => qualifiedNames rest
  | .word qualifier :: .symbol "." :: .word name :: rest => (qualifier, name) :: qualifiedNames rest
  | _ :: rest => qualifiedNames rest

/-- An array length in the type holds a qualified identifier, and the file that the type is written
in imports the package under that qualifier. -/
def Occurrence.Measures (load : List SourcePackage) (o : Occurrence) (qualifier : String)
    (package : PackageRef) : Prop :=
  ∃ source file spec, o.declaration.IsWritten load source file spec ∧
    (spec.scope load source file).imports.lookup qualifier = some package ∧
    ∃ length elem name, o.type.Mentions (.array length elem) ∧
      (qualifier, name) ∈ qualifiedNames ((tokenize length.toList).map (·.kind))

theorem AliasTable.Resolves.path?_eq {t : AliasTable} {host : String} {ps : List Piece}
    {p : PackageRef} {aliasName name : String} (h : t.Resolves host ps)
    (hm : .reference p (aliasName ++ ".") name ∈ ps) : t.path? aliasName = some p.path := by
  rcases h p _ name hm with ⟨hempty, -⟩ | ⟨a, ha, hpath⟩
  · simpa using congrArg String.length hempty
  · obtain rfl : aliasName = a := by simpa using ha
    exact hpath

namespace LoadedPackage

/-- Every qualifier in a printed type is an alias of the package's file, and stands there for the
package that the source means: before the name of a type, the package that the name was written for;
in an array length, the package that is imported under it where the length is written. -/
structure QualifiersImported (load : List SourcePackage) (package : LoadedPackage)
    (s : Surroundings) : Prop where
  names : ∀ o ∈ package.spelled s, ∀ source file spec,
    o.declaration.IsWritten load source file spec → ∀ p aliasName name,
    .reference p (aliasName ++ ".") name ∈ o.type.pieces (package.qualifier s) →
    ∃ e q, spec.type.Mentions e ∧ (spec.scope load source file).Denotes e (some q) name ∧
      (package.aliases s).path? aliasName = some q.path
  lengths : ∀ o ∈ package.spelled s, ∀ qualifier q, o.Measures load qualifier q →
    (package.aliases s).path? qualifier = some q.path

/-- An alias is bound to a path exactly when a method names a package of that path behind it. -/
theorem path?_aliases_iff {package : LoadedPackage} {s : Surroundings} {aliasName path : String} :
    (package.aliases s).path? aliasName = some path ↔
      ∃ m ∈ package.methods s, ∃ p name,
        .reference p (aliasName ++ ".") name ∈ m.pieces (package.qualifier s) ∧ p.path = path := by
  obtain ⟨-, huses, hresolves⟩ := package.generated_imports s
  constructor
  · intro h
    obtain ⟨b, hfind, rfl⟩ := Option.map_eq_some_iff.1 h
    have halias : b.aliasName = aliasName := by simpa using List.find?_some hfind
    obtain ⟨m, hm, p, name, hmem, hpath⟩ := huses b (List.mem_of_find?_eq_some hfind)
    exact ⟨m, hm, p, name, halias ▸ hmem, hpath⟩
  · rintro ⟨m, hm, p, name, hmem, rfl⟩
    exact (hresolves m hm).path?_eq hmem

/-- Names of types are always imported. A qualifier in an array length is imported for its package
exactly when a method also prints the name of a type of that package behind the same qualifier. -/
theorem qualifiersImported_iff (sources : List SourcePackage) (package : LoadedPackage) :
    let s := (Load.ofSources sources).surroundings
    package.QualifiersImported sources s ↔
      ∀ o ∈ package.spelled s, ∀ qualifier q, o.Measures sources qualifier q →
        ∃ m ∈ package.methods s, ∃ p name,
          .reference p (qualifier ++ ".") name ∈ m.pieces (package.qualifier s) ∧
            p.path = q.path := by
  intro s
  constructor
  · intro h o ho qualifier q hmeasures
    exact path?_aliases_iff.1 (h.lengths o ho qualifier q hmeasures)
  · intro h
    refine ⟨?_, ?_⟩
    · intro o ho source file spec hwritten p aliasName name hmem
      obtain ⟨hrefers, hq⟩ := Ty.mem_pieces_iff.1 hmem
      obtain ⟨m, hm, hmem⟩ := exists_reference_iff.2 ⟨o, ho, hrefers, hq⟩
      have hpath := path?_aliases_iff.2 ⟨m, hm, p, name, hmem, rfl⟩
      obtain ⟨e, q, he, hdenotes, hsame⟩ :=
        hwritten.denotes (.of_mentions (mentions_of_spelled ho) hrefers)
      exact ⟨e, q, he, hdenotes, hsame ▸ hpath⟩
    · intro o ho qualifier q hmeasures
      exact path?_aliases_iff.2 (h o ho qualifier q hmeasures)

end LoadedPackage

/-! ## A length of another package -/

namespace DigestLength

def spec : TypeSpec :=
  ⟨none, "Entry", [], false,
    .struct [⟨["Sum"], .array "sha256.Size" (.ident "byte"), none⟩], 6⟩

def file : SourceFile :=
  ⟨"/model/model.go", "model", [⟨none, "crypto/sha256"⟩],
    [.types ⟨some ⟨[directive]⟩, false, [spec]⟩]⟩

def source : SourcePackage :=
  ⟨"model", "example.com/app/model", "/model", ["/model/model.go"], [file]⟩

def package : LoadedPackage := ⟨source, source.definitions⟩

/-- The type of the field, in the declaration of `Entry`. -/
def digest : Occurrence :=
  let type : Ty := .array "sha256.Size" (.basic .byte)
  ⟨⟨some source.ref, "Entry", [], false,
    .struct [⟨"Sum", type, false, none, source.path⟩], []⟩, type⟩

theorem spelled_eq : package.spelled (Load.ofSources [source]).surroundings = [digest] := by
  rfl

theorem measures : digest.Measures [source] "sha256" ⟨"crypto/sha256", "sha256"⟩ := by
  have hwritten : digest.declaration.IsWritten [source] source file spec :=
    ⟨List.mem_cons_self, List.mem_cons_self, List.mem_cons_self, rfl⟩
  have hlookup : (spec.scope [source] source file).imports.lookup "sha256" =
      some ⟨"crypto/sha256", "sha256"⟩ := by decide +kernel
  have hname : ("sha256", "Size") ∈
      qualifiedNames ((tokenize "sha256.Size".toList).map (·.kind)) := by decide +kernel
  exact ⟨source, file, spec, hwritten, hlookup, _, _, "Size", .refl _, hname⟩

end DigestLength

/-- The method for `Entry` writes `sha256.Size`, and `sha256` is not bound. -/
theorem LoadedPackage.length_not_imported :
    DigestLength.package ∈ (Load.ofSources [DigestLength.source]).packages ∧
      ¬ DigestLength.package.QualifiersImported [DigestLength.source]
        (Load.ofSources [DigestLength.source]).surroundings := by
  refine ⟨List.mem_cons_self, fun h => ?_⟩
  have hspelled := List.mem_singleton_self DigestLength.digest
  rw [← DigestLength.spelled_eq] at hspelled
  have hbound := h.lengths _ hspelled _ _ DigestLength.measures
  have hnone : (DigestLength.package.aliases
      (Load.ofSources [DigestLength.source]).surroundings).path? "sha256" = none := by decide +kernel
  rw [hnone] at hbound
  cases hbound

end ResetMethods
