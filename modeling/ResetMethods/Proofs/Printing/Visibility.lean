import ResetMethods.Proofs.Imports.Qualified
import ResetMethods.Proofs.Printing.References

/-!
# ResetMethods.Proofs.Printing.Visibility

Unexported names of other packages in generated methods.

* `SourcePackage.RefersToExported`: the sources of a package keep to exported names of others.
* `LoadedPackage.KeepsVisibility`: so do the methods generated for a package.
* `Ty.Shows`: the names that a type written in a package shows of that package.
* `LoadedPackage.keepsVisibility_iff`: where all sources keep to exported names, the methods do so
  exactly when every type that they spell out of another package's declaration shows exported names
  only.
* `ForeignPointer`: a field of the type `other.Handle`, which is a pointer to a type of `other`. The
  method sets what it points to, and names that type.
-/

namespace ResetMethods

/-- The sources of a package refer to exported names of other packages only. -/
def SourcePackage.RefersToExported (load : List SourcePackage) (source : SourcePackage) : Prop :=
  ∀ d ∈ source.declarations load, ∀ p name, d.rhs.Refers p name → p.path ≠ source.path →
    isExported name = true

/-- The piece is no name, a name of the package at `path`, or an exported one. -/
def Piece.isVisible (path : String) : Piece → Bool
  | .plain _ => true
  | .reference p _ name => p.path == path || isExported name

theorem SourcePackage.refersToExported_iff {load : List SourcePackage} {source : SourcePackage} :
    source.RefersToExported load ↔ ∀ d ∈ source.declarations load,
      ∀ piece ∈ d.rhs.pieces fun _ => "", piece.isVisible source.path = true := by
  refine forall₂_congr fun d _ => ?_
  constructor
  · intro h piece hpiece
    cases piece with
    | plain text => rfl
    | reference p qualifier name =>
      obtain ⟨hrefers, -⟩ := Ty.mem_pieces_iff.1 hpiece
      by_cases hp : p.path = source.path
      · simp [Piece.isVisible, hp]
      · simp [Piece.isVisible, h p name hrefers hp]
  · intro h p name hrefers hp
    have hvisible := h _ (Ty.mem_pieces_iff.2 ⟨hrefers, rfl⟩)
    simpa [Piece.isVisible, hp] using hvisible

instance (load : List SourcePackage) (source : SourcePackage) :
    Decidable (source.RefersToExported load) :=
  decidable_of_iff' _ SourcePackage.refersToExported_iff

/-- The methods of a package name no unexported identifier of another package. `references` is about
names behind an import alias, `fields` and `methods` about the members of struct and interface types.
The methods of an interface type belong to the package that writes the type. -/
structure LoadedPackage.KeepsVisibility (package : LoadedPackage) (s : Surroundings) : Prop where
  references : ∀ m ∈ package.methods s, ∀ p aliasName name,
    .reference p (aliasName ++ ".") name ∈ m.pieces (package.qualifier s) → isExported name = true
  fields : ∀ o ∈ package.spelled s, ∀ fields, o.type.Mentions (.struct fields) →
    ∀ f ∈ fields, f.package ≠ package.source.path → isExported f.name = true
  methods : ∀ o ∈ package.spelled s, o.declaration.key.package ≠ package.source.path →
    ∀ methods embeds, o.type.Mentions (.interface methods embeds) →
      ∀ m ∈ methods, isExported m.name = true

/-- A type that is written in the package at `path` shows a name of that package: of a type, of a
field, or of a method. -/
inductive Ty.Shows (path : String) (ty : Ty) : String → Prop where
  | reference {p : PackageRef} {name : String} : ty.Refers p name → p.path = path →
      Shows path ty name
  | field {fields : List (Field Ty)} {f : Field Ty} : ty.Mentions (.struct fields) → f ∈ fields →
      Shows path ty f.name
  | method {methods : List (MethodSpec Ty)} {embeds : List Ty} {m : MethodSpec Ty} :
      ty.Mentions (.interface methods embeds) → m ∈ methods → Shows path ty m.name

namespace LoadedPackage

/-- Where all sources keep to exported names of other packages, only a type that is taken out of
another package's declaration can bring an unexported name of another package into a method. -/
theorem keepsVisibility_iff {sources : List SourcePackage}
    (h : ∀ source ∈ sources, source.RefersToExported sources) (package : LoadedPackage) :
    let s := (Load.ofSources sources).surroundings
    package.KeepsVisibility s ↔
      ∀ o ∈ package.spelled s, o.declaration.key.package ≠ package.source.path →
        ∀ name, o.type.Shows o.declaration.key.package name → isExported name = true := by
  intro s
  constructor
  · intro hkeeps o ho hforeign name hshows
    obtain ⟨source, file, spec, hwritten⟩ := spelled_written ho
    cases hshows with
    | @reference p _ hrefers hpath =>
      rw [← hpath] at hforeign
      obtain ⟨aliasName, hq⟩ := (exists_qualifier_iff (s := s)).2 hforeign
      obtain ⟨m, hm, hmem⟩ := exists_reference_iff.2 ⟨o, ho, hrefers, hq⟩
      exact hkeeps.references m hm p aliasName name hmem
    | field hfields hf =>
      refine hkeeps.fields o ho _ hfields _ hf ?_
      rw [hwritten.fields_package ((mentions_of_spelled ho).trans hfields) hf]
      exact hforeign
    | method hmethods hm => exact hkeeps.methods o ho hforeign _ _ hmethods _ hm
  · intro hshows
    refine ⟨?_, ?_, ?_⟩
    · intro m hm p aliasName name hmem
      obtain ⟨o, ho, hrefers, hq⟩ := exists_reference_iff.1 ⟨m, hm, hmem⟩
      have hforeign : p.path ≠ package.source.path := exists_qualifier_iff.1 ⟨aliasName, hq⟩
      by_cases hown : p.path = o.declaration.key.package
      · exact hshows o ho (hown ▸ hforeign) name (.reference hrefers hown)
      -- a third package: the source that declares the type keeps to exported names of it
      · obtain ⟨source, file, spec, hwritten⟩ := spelled_written ho
        rw [hwritten.package_eq] at hown
        exact h source hwritten.mem_load _ hwritten.mem_declarations p name
          (.of_mentions (mentions_of_spelled ho) hrefers) hown
    · intro o ho fields hfields f hf hforeign
      obtain ⟨source, file, spec, hwritten⟩ := spelled_written ho
      rw [hwritten.fields_package ((mentions_of_spelled ho).trans hfields) hf] at hforeign
      exact hshows o ho hforeign _ (.field hfields hf)
    · intro o ho hforeign methods embeds hmethods m hm
      exact hshows o ho hforeign _ (.method hmethods hm)

end LoadedPackage

/-! ## A foreign pointer type -/

namespace ForeignPointer

/-- A package with a struct type and a pointer type to it. -/
def otherFile (name : String) : SourceFile :=
  ⟨"/other/other.go", "other", [],
    [.types ⟨none, false, [⟨none, name, [], false, .struct [⟨["N"], .ident "int", none⟩], 3⟩]⟩,
      .types ⟨none, false, [⟨none, "Handle", [], false, .pointer (.ident name), 5⟩]⟩]⟩

def file : SourceFile :=
  ⟨"/model/model.go", "model", [⟨none, "example.com/app/other"⟩],
    [.types ⟨some ⟨[directive]⟩, false,
      [⟨none, "Entry", [], false, .struct [⟨["P"], .qualified "other" "Handle", none⟩], 6⟩]⟩]⟩

def source : SourcePackage :=
  ⟨"model", "example.com/app/model", "/model", ["/model/model.go"], [file]⟩

def sources (name : String) : List SourcePackage :=
  [source, ⟨"other", "example.com/app/other", "/other", ["/other/other.go"], [otherFile name]⟩]

def package : LoadedPackage := ⟨source, source.definitions⟩

def other : PackageRef := ⟨"example.com/app/other", "other"⟩

/-- What the field points to, as the declaration of `Handle` says. -/
def pointee (name : String) : Occurrence :=
  let type : Ty := .named ⟨some other, name, []⟩
  ⟨⟨some other, "Handle", [], false, .pointer type, []⟩, type⟩

theorem spelled_inner :
    package.spelled (Load.ofSources (sources "inner")).surroundings = [pointee "inner"] := by
  rfl

theorem spelled_Inner :
    package.spelled (Load.ofSources (sources "Inner")).surroundings = [pointee "Inner"] := by
  rfl

/-- A name without arguments shows itself and nothing else. -/
theorem eq_of_shows {path ident name : String}
    (h : (Ty.named ⟨some other, ident, []⟩).Shows path name) : name = ident := by
  cases h with
  | reference hrefers _ =>
    have hmem := Ty.mem_pieces_iff (q := fun _ => "").2 ⟨hrefers, rfl⟩
    cases List.mem_singleton.1 hmem
    rfl
  | field hmentions _ =>
    rcases Ty.mentions_iff.1 hmentions with h | ⟨c, hc, -⟩
    · cases h
    · cases hc
  | method hmentions _ =>
    rcases Ty.mentions_iff.1 hmentions with h | ⟨c, hc, -⟩
    · cases h
    · cases hc

end ForeignPointer

namespace LoadedPackage

/-- Both packages keep to exported names, and yet the method for `Entry` names `other.inner`. -/
theorem foreign_type_spelled :
    (∀ source ∈ ForeignPointer.sources "inner",
      source.RefersToExported (ForeignPointer.sources "inner")) ∧
    ForeignPointer.package ∈ (Load.ofSources (ForeignPointer.sources "inner")).packages ∧
      ¬ ForeignPointer.package.KeepsVisibility
        (Load.ofSources (ForeignPointer.sources "inner")).surroundings := by
  refine ⟨by decide, List.mem_cons_self, fun hkeeps => ?_⟩
  have hspelled := List.mem_singleton_self (ForeignPointer.pointee "inner")
  rw [← ForeignPointer.spelled_inner] at hspelled
  have hforeign : ForeignPointer.other.path ≠ ForeignPointer.package.source.path := by decide
  obtain ⟨aliasName, hq⟩ := exists_qualifier_iff.2 hforeign
  obtain ⟨m, hm, hmem⟩ := exists_reference_iff.2 ⟨_, hspelled, ⟨_, .refl _, rfl⟩, hq⟩
  have hexported := hkeeps.references m hm ForeignPointer.other aliasName "inner" hmem
  exact absurd hexported (by decide)

/-- With an exported struct type, the methods keep to exported names. -/
theorem keepsVisibility_sample :
    ForeignPointer.package.KeepsVisibility
      (Load.ofSources (ForeignPointer.sources "Inner")).surroundings := by
  refine (keepsVisibility_iff (by decide) _).2 ?_
  intro o ho _ name hshows
  rw [ForeignPointer.spelled_Inner, List.mem_singleton] at ho
  subst ho
  rw [ForeignPointer.eq_of_shows hshows]
  decide

end LoadedPackage

end ResetMethods
