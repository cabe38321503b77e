import ResetMethods.Proofs.Printing.Occurrences

/-!
# ResetMethods.Proofs.Printing.Parameters

Type parameters in generated methods.

* `LoadedPackage.parameter_free_iff`: no method of a package spells a type parameter exactly when none spells
  a type out of a generic declaration with a parameter of the declaration in it.
* `GenericPointer`: a field of the type `Ref[int]`, where `Ref[T]` is a pointer to `T`. The walk to
  the pointer passes the declaration as it is written, and `*new(T)` gets into the method.
-/

namespace ResetMethods

/-- A walk passes the right-hand sides of generic declarations without putting arguments in the place
of their parameters. This is the only way that a type parameter gets into a method. -/
theorem LoadedPackage.parameter_free_iff (sources : List SourcePackage) (package : LoadedPackage) :
    let s := (Load.ofSources sources).surroundings
    (∀ m ∈ package.methods s, ∀ ty ∈ m.types, ∀ name, ¬ ty.Mentions (.typeParam name)) ↔
      ∀ o ∈ package.spelled s, ∀ name ∈ o.declaration.typeParams,
        ¬ o.type.Mentions (.typeParam name) := by
  intro s
  have htypes := package.types_methods s
  constructor
  · intro h o ho name _
    have hty : o.type ∈ (package.methods s).flatMap (·.types) := by
      rw [htypes]
      exact List.mem_map_of_mem ho
    obtain ⟨m, hm, hty⟩ := List.mem_flatMap.1 hty
    exact h m hm o.type hty name
  · intro h m hm ty hty name hmentions
    have hspelled : ty ∈ (package.spelled s).map (·.type) := by
      rw [← htypes]
      exact List.mem_flatMap.2 ⟨m, hm, hty⟩
    obtain ⟨o, ho, rfl⟩ := List.mem_map.1 hspelled
    -- the parameter belongs to the declaration that the type is written in
    obtain ⟨source, file, spec, hwritten⟩ := spelled_written ho
    have hrhs := (mentions_of_spelled ho).trans hmentions
    exact h o ho name (hwritten.mem_typeParams hrhs) hmentions

namespace GenericPointer

def file : SourceFile :=
  ⟨"/model/model.go", "model", [],
    [.types ⟨none, false, [⟨none, "Ref", ["T"], false, .pointer (.ident "T"), 3⟩]⟩,
      .types ⟨some ⟨[directive]⟩, false,
        [⟨none, "Entry", [], false,
          .struct [⟨["P"], .generic (.ident "Ref") [.ident "int"], none⟩], 6⟩]⟩]⟩

def source : SourcePackage :=
  ⟨"model", "example.com/app/model", "/model", ["/model/model.go"], [file]⟩

def load : Load := .ofSources [source]

def package : LoadedPackage := ⟨source, source.definitions⟩

theorem methods_eq : package.methods load.surroundings =
    [⟨"obj", "Entry", [.guarded (.ofField "obj" "P")
      (.assign (Operand.ofField "obj" "P").target (.blank (.typeParam "T")))]⟩] := by
  rfl

end GenericPointer

/-- The method for `Entry` sets what its field points to to a new `T`. -/
theorem LoadedPackage.type_parameter_spelled :
    ¬ ∀ package ∈ GenericPointer.load.packages,
      ∀ m ∈ package.methods GenericPointer.load.surroundings, ∀ ty ∈ m.types, ∀ name,
        ¬ ty.Mentions (.typeParam name) := by
  intro h
  have hmethods := h GenericPointer.package List.mem_cons_self
  rw [GenericPointer.methods_eq] at hmethods
  exact hmethods _ List.mem_cons_self (.typeParam "T") List.mem_cons_self "T" (.refl _)

end ResetMethods
