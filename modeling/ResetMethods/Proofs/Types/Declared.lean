import Mathlib.Data.List.Flatten
import ResetMethods.Proofs.Types.Written

/-!
# ResetMethods.Proofs.Types.Declared

What the declarations of a load say of a key, and of an identifier.

* `key_of_typeTable`: each declaration stands under its own key.
* `mem_methods_iff`, `mem_receivedMethods`, `exists_receivedMethod`: a declared type has the methods
  that are written for it.
* `SourcePackage.get?_definitions`, `SourcePackage.type?_definitions`: the first declaration of an
  identifier counts; one that denotes a type denotes the type of that name in the package.
* `SourcePackage.DeclaresOnce`: an identifier is declared once at most.
  `DeclaresOnce.type?_definitions`: a type with such a name is what the name denotes.
-/

namespace ResetMethods

/-- A key that no other element has leads back to its element. -/
theorem filter_eq_singleton {α β : Type} [DecidableEq β] {f : α → β} {l : List α} {a : α}
    (ha : a ∈ l) (honce : (l.map f).count (f a) ≤ 1) : l.filter (f · = f a) = [a] := by
  have hmem : a ∈ l.filter (f · = f a) := List.mem_filter.2 ⟨ha, by simp⟩
  have hlength : (l.filter (f · = f a)).length = (l.map f).count (f a) := by
    rw [List.count_eq_countP, List.countP_map, List.countP_eq_length_filter]
    rfl
  have hpos := List.length_pos_of_mem hmem
  obtain ⟨b, hb⟩ := List.length_eq_one_iff.1 (by omega : (l.filter (f · = f a)).length = 1)
  rw [hb] at hmem ⊢
  rw [List.mem_singleton.1 hmem]

/-! ## Tables by key -/

section Table

variable {k : TypeKey}

theorem key_of_typeTable {load : List SourcePackage} {d : Declaration}
    (h : (typeTable load).get? k = some d) : d.key = k := by
  obtain ⟨e, rfl, hkey, -⟩ := exists_of_get?_typeTable h
  exact hkey

/-- The methods of a declared type come from the functions that name it as their receiver. -/
theorem mem_methods_iff {load : List SourcePackage} {d : Declaration}
    (h : (typeTable load).get? k = some d) {m : Method} :
    m ∈ d.methods ↔ ⟨k, m⟩ ∈ receivedMethods load := by
  obtain ⟨e, rfl, -, hnone, -⟩ := exists_of_get?_typeTable h
  rw [Declaration.withMethods, hnone, List.nil_append, methodsOn, List.mem_map]
  constructor
  · rintro ⟨⟨receiver, method⟩, hm, rfl⟩
    obtain ⟨hm, hk⟩ := List.mem_filter.1 hm
    simp only [decide_eq_true_eq] at hk
    rwa [hk] at hm
  · intro hm
    exact ⟨⟨k, m⟩, List.mem_filter.2 ⟨hm, by simp⟩, rfl⟩

theorem mem_receivedMethods {load : List SourcePackage} {m : ReceivedMethod}
    (h : m ∈ receivedMethods load) :
    ∃ source ∈ load, ∃ file ∈ source.sources, ∃ decl ∈ file.functions, ∃ receiver,
      decl.receiver = some receiver ∧ m.receiver = ⟨source.path, receiver.typeName⟩ ∧
        m.method.name = decl.name := by
  obtain ⟨source, hsource, h⟩ := List.mem_flatMap.1 h
  obtain ⟨file, hfile, h⟩ := List.mem_flatMap.1 h
  obtain ⟨decl, hdecl, h⟩ := List.mem_filterMap.1 h
  obtain ⟨receiver, hreceiver, rfl⟩ := Option.map_eq_some_iff.1 h
  exact ⟨source, hsource, file, hfile, decl, hdecl, receiver, hreceiver, rfl, rfl⟩

theorem exists_receivedMethod {load : List SourcePackage} {source : SourcePackage}
    (hsource : source ∈ load) {file : SourceFile} (hfile : file ∈ source.sources) {decl : FuncDecl}
    (hdecl : decl ∈ file.functions) {receiver : Receiver} (hreceiver : decl.receiver = some receiver) :
    ∃ m, ⟨⟨source.path, receiver.typeName⟩, m⟩ ∈ receivedMethods load ∧ m.name = decl.name := by
  refine ⟨_, List.mem_flatMap.2 ⟨source, hsource, List.mem_flatMap.2 ⟨file, hfile,
    List.mem_filterMap.2 ⟨decl, hdecl, Option.map_eq_some_iff.2 ⟨receiver, hreceiver, rfl⟩⟩⟩⟩, rfl⟩

end Table

/-! ## Identifiers -/

namespace SourcePackage

/-- The identifiers that the files of a package introduce, with what they denote, in order. -/
def introduces (source : SourcePackage) : List (String × Definition) :=
  source.sources.flatMap fun file => file.decls.flatMap (·.definitions source.ref)

/-- The first declaration of an identifier counts, and the blank one denotes nothing. -/
theorem get?_definitions (source : SourcePackage) (name : String) :
    source.definitions.get? name =
      if name = "_" then none else (source.introduces.find? (·.1 = name)).map (·.2) := by
  rw [definitions, Dict.get?_erase, Dict.get?_insertAllNew, Dict.get?_empty, Option.none_or]
  rfl

theorem eq_of_mem_introduces {source : SourcePackage} {name : String} {n : Named Ty}
    (h : (name, .type n) ∈ source.introduces) : n = ⟨some source.ref, name, []⟩ := by
  obtain ⟨file, -, h⟩ := List.mem_flatMap.1 h
  obtain ⟨decl, -, h⟩ := List.mem_flatMap.1 h
  cases decl with
  | types decl =>
    obtain ⟨spec, -, hspec⟩ := List.mem_map.1 h
    cases hspec
    rfl
  | function decl =>
    rw [Decl.definitions] at h
    split at h
    · simp at h
    · cases h
  | «variables» names => simp [Decl.definitions] at h
  | constants names => simp [Decl.definitions] at h

/-- An identifier that denotes a type denotes the type of that name in the package. -/
theorem type?_definitions {source : SourcePackage} {name : String} {n : Named Ty}
    (h : source.definitions.type? name = some n) : n = ⟨some source.ref, name, []⟩ := by
  unfold Definitions.type? at h
  split at h
  · rename_i named hd
    cases h
    rw [get?_definitions] at hd
    split at hd
    · cases hd
    · obtain ⟨⟨ident, definition⟩, hfind, rfl⟩ := Option.map_eq_some_iff.1 hd
      obtain rfl : ident = name := by simpa using List.find?_some hfind
      exact eq_of_mem_introduces (List.mem_of_find?_eq_some hfind)
  · cases h

/-- The files of the package declare the identifier once at most. -/
def DeclaresOnce (source : SourcePackage) (name : String) : Prop :=
  (source.introduces.map (·.1)).count name ≤ 1

theorem mem_introduces {source : SourcePackage} {spec : TypeSpec} (h : spec ∈ source.typeSpecs) :
    (spec.name, .type ⟨some source.ref, spec.name, []⟩) ∈ source.introduces := by
  obtain ⟨file, hfile, h⟩ := List.mem_flatMap.1 h
  obtain ⟨decl, hdecl, h⟩ := List.mem_flatMap.1 h
  refine List.mem_flatMap.2 ⟨file, hfile, List.mem_flatMap.2 ⟨decl, hdecl, ?_⟩⟩
  cases decl with
  | types decl => exact List.mem_map_of_mem h
  | _ => cases h

/-- The types of a package are among the identifiers that it introduces. -/
theorem names_introduces (source : SourcePackage) :
    (source.typeSpecs.map (·.name)).Sublist (source.introduces.map (·.1)) := by
  rw [typeSpecs, introduces, List.map_flatMap, List.map_flatMap]
  refine List.Sublist.flatMap_right _ fun file _ => ?_
  rw [SourceFile.typeSpecs, List.map_flatMap, List.map_flatMap]
  refine List.Sublist.flatMap_right _ fun decl _ => ?_
  cases decl with
  | types decl =>
    rw [Decl.definitions, List.map_map]
    exact .refl _
  | _ => exact List.nil_sublist _

namespace DeclaresOnce

variable {source : SourcePackage} {spec : TypeSpec} {name : String}

theorem count_typeSpecs (h : source.DeclaresOnce name) :
    (source.typeSpecs.map (·.name)).count name ≤ 1 :=
  Nat.le_trans (source.names_introduces.count_le name) h

/-- A name that a package declares only as a type denotes the type. -/
theorem type?_definitions (h : source.DeclaresOnce spec.name) (hspec : spec ∈ source.typeSpecs)
    (hblank : spec.name ≠ "_") :
    source.definitions.type? spec.name = some ⟨some source.ref, spec.name, []⟩ := by
  have hfind : source.introduces.find? (·.1 = spec.name) =
      some (spec.name, .type ⟨some source.ref, spec.name, []⟩) := by
    rw [← List.head?_filter, filter_eq_singleton (f := Prod.fst) (mem_introduces hspec) h]
    rfl
  rw [Definitions.type?, get?_definitions, if_neg hblank, hfind]
  rfl

end DeclaresOnce

end SourcePackage

end ResetMethods
