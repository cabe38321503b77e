import ResetMethods.Proofs.Imports.Choices
import ResetMethods.Proofs.Printing.Lengths

/-!
# ResetMethods.Proofs.Generation.Capture

Names in generated methods that something nearer may capture.

* `LoadedPackage.ReliesOn`: the universe names that the methods of a package use.
* `LoadedPackage.CaptureFree`: neither an alias nor an identifier of the package stands in front of
  such a name, and no type that is printed in the scope of `r` and `ok` is written with one of them.
* `LoadedPackage.NamesApart`: the same by the names of packages and types.
* `LoadedPackage.captureFree_iff`: the two agree. Only the identifiers of the package and the
  receiver are reserved; all other pairs of names depend on what the packages are called.
* `PackageOk`: a type of the package `ok`. The variable `ok` hides the alias that qualifies it.
-/

namespace ResetMethods

/-! ## What methods rely on -/

def builtinNames : List String := ["any", "new", "clear", "nil", "false"]

/-- The predeclared names that a generated method may use. -/
def universeNames : List String :=
  builtinNames ++ "error" :: (BasicKind.all.filter (·.isPredeclared)).map (·.name)

/-- The variables that a statement declares which looks for `Reset()` at run time. -/
def probeLocals : List String := ["r", "ok"]

def Value.builtins : Value → List String
  | .zero kind => [kind.zeroLiteral].filter (builtinNames.contains ·)
  | .null => ["nil"]
  | .emptied => []
  | .composite _ => []
  | .blank _ => ["new"]

/-- The builtins that the text of a statement names, types aside. -/
def Statement.builtins : Statement → List String
  | .assign _ value => value.builtins
  | .clear _ => ["clear"]
  | .call _ => []
  | .guarded _ body => "nil" :: body.builtins
  | .callIfAble _ => []
  | .probe _ _ => ["any", "new"]

/-- A method compares its receiver with `nil` first. -/
def ResetMethod.builtins (m : ResetMethod) : List String :=
  "nil" :: m.body.flatMap Statement.builtins

/-- The types that a statement prints in the scope of its variables. -/
def Statement.probed : Statement → List Ty
  | .probe _ type => [type]
  | .guarded _ body => body.probed
  | .assign _ _ => []
  | .clear _ => []
  | .call _ => []
  | .callIfAble _ => []

/-- The predeclared name that a type is. -/
def Ty.predeclared? : Ty → Option String
  | .basic kind => if kind.isPredeclared then some kind.name else none
  | .named ⟨none, name, _⟩ => some name
  | _ => none

namespace LoadedPackage

/-- A method of the package uses the universe name, itself or in a type that it prints. -/
def ReliesOn (package : LoadedPackage) (s : Surroundings) (name : String) : Prop :=
  name ∈ universeNames ∧ ∃ m ∈ package.methods s,
    name ∈ m.builtins ∨ ∃ ty ∈ m.types, ∃ u, ty.Mentions u ∧ u.predeclared? = some name

def probed (package : LoadedPackage) (s : Surroundings) : List Ty :=
  (package.methods s).flatMap fun m => m.body.flatMap Statement.probed

/-- The packages that the methods name, without the host, in the order in which they are bound. -/
def imported (package : LoadedPackage) (s : Surroundings) : List PackageRef :=
  firstOfEach [package.source.path] ((package.methods s).flatMap (·.packages))

end LoadedPackage

/-- A type is written with the name where no qualifier stands before it. -/
inductive Ty.PrintsBare (q : PackageRef → String) (ty : Ty) (name : String) : Prop where
  | reference {p : PackageRef} : .reference p "" name ∈ ty.pieces q → PrintsBare q ty name
  | typeParam : ty.Mentions (.typeParam name) → PrintsBare q ty name
  | predeclared {args : List Ty} : ty.Mentions (.named ⟨none, name, args⟩) → PrintsBare q ty name

/-- No name that the methods rely on is an alias of the file or an identifier of the package, and no
type that is printed in the scope of `r` and `ok` is qualified by one of them or written with it. -/
structure LoadedPackage.CaptureFree (package : LoadedPackage) (s : Surroundings) : Prop where
  aliases : ∀ name, package.ReliesOn s name → (package.aliases s).path? name = none
  identifiers : ∀ name, package.ReliesOn s name → name ∉ package.definitions.keys
  qualifiers : ∀ ty ∈ package.probed s, ∀ name ∈ probeLocals, ∀ p ident,
    .reference p (name ++ ".") ident ∉ ty.pieces (package.qualifier s)
  names : ∀ ty ∈ package.probed s, ∀ name ∈ probeLocals, ¬ ty.PrintsBare (package.qualifier s) name

/-- The package declares no name that the methods rely on, and no package that they name is called
or numbered to such a name. A type that is printed in the scope of `r` and `ok` refers to no package
that is the first one of that name, unless the host has taken the name, and it is not written with
such a name itself. -/
structure LoadedPackage.NamesApart (package : LoadedPackage) (s : Surroundings) : Prop where
  declared : ∀ name, package.ReliesOn s name → name ∉ package.definitions.keys
  called : ∀ name, package.ReliesOn s name → ∀ p ∈ package.imported s, p.name ≠ name
  numbered : ∀ name, package.ReliesOn s name →
    ¬ (package.viewpoint s.table).NumberedTo package.noAliases (package.imported s) name
  foreign : ∀ ty ∈ package.probed s, ∀ name ∈ probeLocals, name ∉ package.definitions.keys →
    ∀ p ident, ty.Refers p ident →
      ((package.imported s).find? (·.name == name)).map (·.path) ≠ some p.path
  own : ∀ ty ∈ package.probed s, ∀ name ∈ probeLocals, ∀ p, ty.Refers p name →
    p.path ≠ package.source.path
  parameters : ∀ ty ∈ package.probed s, ∀ name ∈ probeLocals, ¬ ty.Mentions (.typeParam name)
  predeclared : ∀ ty ∈ package.probed s, ∀ name ∈ probeLocals, ∀ args,
    ¬ ty.Mentions (.named ⟨none, name, args⟩)

/-! ## Aliases -/

theorem Text.prefix_fresh (base : String) (taken : List String) :
    base.toList <+: (Text.fresh base taken).toList := by
  obtain ⟨k, hk, -, -⟩ := Text.fresh_spec base taken
  rw [hk, Text.candidate]
  split
  · exact List.prefix_refl _
  · rw [String.toList_append]
    exact List.prefix_append _ _

namespace LoadedPackage

variable {package : LoadedPackage} {s : Surroundings} {name : String}

/-- The receiver is called `obj`, perhaps with a number, and no name of interest starts like that. -/
theorem receiver_ne (h : name ∈ universeNames ++ probeLocals) : name ≠ package.receiver := by
  rintro rfl
  have hprefix := Text.prefix_fresh preferredReceiver package.definitions.keys
  have hapart : ∀ name ∈ universeNames ++ probeLocals,
      ¬ preferredReceiver.toList <+: name.toList := by decide
  exact hapart _ h hprefix

theorem not_mem_reserved (h : name ∈ universeNames ++ probeLocals)
    (hname : name ∉ package.definitions.keys) : name ∉ package.noAliases.reserved := by
  intro hmem
  rcases List.mem_append.1 hmem with hkeys | hreceiver
  · exact hname hkeys
  · exact receiver_ne h (List.mem_singleton.1 hreceiver)

theorem covers_noAliases : (package.viewpoint s.table).Covers package.noAliases
    [package.source.path] :=
  Viewpoint.covers_withReserved _ _

/-- A universe name that the host leaves free is an alias if and only if a package is called so, or
numbered to it. -/
theorem path?_aliases_eq_none_iff (h : name ∈ universeNames)
    (hname : name ∉ package.definitions.keys) :
    (package.aliases s).path? name = none ↔ (∀ p ∈ package.imported s, p.name ≠ name) ∧
      ¬ (package.viewpoint s.table).NumberedTo package.noAliases (package.imported s) name := by
  have hreserved := not_mem_reserved (List.mem_append_left _ h) hname
  have hiff := Viewpoint.path?_bindAll_eq_none_iff (covers_noAliases (s := s)) hreserved
    ((package.methods s).flatMap (·.packages))
  exact hiff.trans (and_iff_right rfl)

/-- An identifier of the host is no alias; `r` and `ok` are aliases of the first package of that
name otherwise. -/
theorem path?_aliases_of_local (h : name ∈ probeLocals) {path : String} :
    (package.aliases s).path? name = some path ↔ name ∉ package.definitions.keys ∧
      ((package.imported s).find? (·.name == name)).map (·.path) = some path := by
  by_cases hname : name ∈ package.definitions.keys
  · have hnone : (package.aliases s).path? name = none := by
      have hmem : name ∈ package.noAliases.reserved := List.mem_append_left _ hname
      rw [aliases, Viewpoint.bindAll_eq]
      refine (AliasTable.spares_bindEach _ _).path?_eq_none ?_
      rwa [AliasTable.reserved_bindEach]
    simp [hnone, hname]
  · have hreserved := not_mem_reserved (List.mem_append_right _ h) hname
    have hdigitless : ∀ name ∈ probeLocals, ¬ Text.EndsInDigit name := by decide
    have heq := Viewpoint.path?_bindAll_of_digitless (covers_noAliases (s := s)) hreserved
      (hdigitless name h) ((package.methods s).flatMap (·.packages))
    rw [aliases, heq]
    simp [imported, hname, noAliases, AliasTable.path?, AliasTable.withReserved]

/-! ## Types in the scope of `r` and `ok` -/

variable {ty : Ty} {p : PackageRef} {ident : String}

theorem probed_subset_types (st : Statement) : st.probed ⊆ st.types := by
  induction st with
  | guarded e body ih => exact ih
  | probe e type => exact List.Subset.refl _
  | _ => exact List.nil_subset _

theorem exists_method_of_mem_probed (h : ty ∈ package.probed s) :
    ∃ m ∈ package.methods s, ty ∈ m.types := by
  obtain ⟨m, hm, h⟩ := List.mem_flatMap.1 h
  obtain ⟨st, hst, h⟩ := List.mem_flatMap.1 h
  exact ⟨m, hm, List.mem_flatMap.2 ⟨st, hst, probed_subset_types st h⟩⟩

theorem qualifier_eq_empty_iff : package.qualifier s p = "" ↔ p.path = package.source.path := by
  rw [qualifier, Viewpoint.qualifier]
  constructor
  · intro h
    split at h
    · rename_i hlocal
      simpa [viewpoint] using hlocal
    · simpa using congrArg String.length h
  · intro h
    rw [if_pos (by simpa [viewpoint] using h)]

/-- In a printed type a name stands behind an alias exactly when the alias is bound to its package. -/
theorem qualified_iff (h : ty ∈ package.probed s) :
    .reference p (name ++ ".") ident ∈ ty.pieces (package.qualifier s) ↔
      ty.Refers p ident ∧ (package.aliases s).path? name = some p.path := by
  rw [Ty.mem_pieces_iff]
  refine and_congr_right fun hrefers => ?_
  constructor
  · intro hq
    obtain ⟨m, hm, hty⟩ := exists_method_of_mem_probed h
    exact path?_aliases_iff.2
      ⟨m, hm, p, ident, ResetMethod.mem_pieces_iff.2 ⟨ty, hty, hrefers, hq⟩, rfl⟩
  · intro hpath
    -- the alias is in use, so its path is not that of the host
    obtain ⟨m, -, p', ident', hmem, hsame⟩ := path?_aliases_iff.1 hpath
    obtain ⟨-, -, -, hq⟩ := ResetMethod.mem_pieces_iff.1 hmem
    have hforeign := exists_qualifier_iff.1 ⟨name, hq⟩
    rw [hsame] at hforeign
    have hdistinct : (package.aliases s).Distinct :=
      Viewpoint.distinct_bindAll (AliasTable.distinct_withReserved _) _
    have halias := (hdistinct.path?_eq_some_iff_alias? name p.path).1 hpath
    rw [qualifier, Viewpoint.qualifier, if_neg (by simpa [viewpoint] using hforeign), halias,
      Option.getD_some]

/-- Generated names are free of capture exactly when the names of packages, identifiers and types
keep apart. -/
theorem captureFree_iff (package : LoadedPackage) (s : Surroundings) :
    package.CaptureFree s ↔ package.NamesApart s := by
  constructor
  · intro h
    have haliases := fun name hname =>
      (path?_aliases_eq_none_iff hname.1 (h.identifiers name hname)).1 (h.aliases name hname)
    refine ⟨h.identifiers, fun name hname => (haliases name hname).1,
      fun name hname => (haliases name hname).2, ?_, ?_, ?_, ?_⟩
    · intro ty hty name hname hfree p ident hrefers hfirst
      have hpath := (path?_aliases_of_local hname).2 ⟨hfree, hfirst⟩
      exact h.qualifiers ty hty name hname p ident ((qualified_iff hty).2 ⟨hrefers, hpath⟩)
    · intro ty hty name hname p hrefers hlocal
      have hq : "" = package.qualifier s p := (qualifier_eq_empty_iff.2 hlocal).symm
      exact h.names ty hty name hname (.reference (Ty.mem_pieces_iff.2 ⟨hrefers, hq⟩))
    · intro ty hty name hname hmentions
      exact h.names ty hty name hname (.typeParam hmentions)
    · intro ty hty name hname args hmentions
      exact h.names ty hty name hname (.predeclared hmentions)
  · intro h
    refine ⟨?_, h.declared, ?_, ?_⟩
    · intro name hname
      exact (path?_aliases_eq_none_iff hname.1 (h.declared name hname)).2
        ⟨h.called name hname, h.numbered name hname⟩
    · intro ty hty name hname p ident hmem
      obtain ⟨hrefers, hpath⟩ := (qualified_iff hty).1 hmem
      obtain ⟨hfree, hfirst⟩ := (path?_aliases_of_local hname).1 hpath
      exact h.foreign ty hty name hname hfree p ident hrefers hfirst
    · intro ty hty name hname hbare
      cases hbare with
      | reference hmem =>
        obtain ⟨hrefers, hq⟩ := Ty.mem_pieces_iff.1 hmem
        exact h.own ty hty name hname _ hrefers (qualifier_eq_empty_iff.1 hq.symm)
      | typeParam hmentions => exact h.parameters ty hty name hname hmentions
      | predeclared hmentions => exact h.predeclared ty hty name hname _ hmentions

end LoadedPackage

/-! ## A package called `ok` -/

namespace PackageOk

def file : SourceFile :=
  ⟨"/model/model.go", "model", [⟨none, "example.com/lib/ok"⟩],
    [.types ⟨some ⟨[directive]⟩, false,
      [⟨none, "Entry", [], false, .struct [⟨["V"], .qualified "ok" "Value", none⟩], 6⟩]⟩]⟩

def source : SourcePackage :=
  ⟨"model", "example.com/app/model", "/model", ["/model/model.go"], [file]⟩

def load : Load := .ofSources [source]

def package : LoadedPackage := ⟨source, source.definitions⟩

def ok : PackageRef := ⟨"example.com/lib/ok", "ok"⟩

theorem probed_eq : package.probed load.surroundings = [.named ⟨some ok, "Value", []⟩] := by
  rfl

end PackageOk

/-- The method for `Entry` writes `*new(ok.Value)` where `ok` is a variable. -/
theorem LoadedPackage.qualifier_captured :
    PackageOk.package ∈ PackageOk.load.packages ∧
      ¬ PackageOk.package.CaptureFree PackageOk.load.surroundings := by
  refine ⟨List.mem_cons_self, fun hfree => ?_⟩
  have hprobed := List.mem_singleton_self (Ty.named ⟨some PackageOk.ok, "Value", []⟩)
  rw [← PackageOk.probed_eq] at hprobed
  have hpath : (PackageOk.package.aliases PackageOk.load.surroundings).path? "ok" =
      some PackageOk.ok.path := by rfl
  exact hfree.qualifiers _ hprobed "ok" (by decide) PackageOk.ok "Value"
    ((qualified_iff hprobed).2 ⟨⟨_, .refl _, rfl⟩, hpath⟩)

end ResetMethods
