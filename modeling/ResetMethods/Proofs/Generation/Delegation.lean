import ResetMethods.Proofs.Generation.Targets
import ResetMethods.Proofs.Runs.Success
import ResetMethods.Proofs.Types.Walk

/-!
# ResetMethods.Proofs.Generation.Delegation

Calls of methods that are about to be generated.

* `LoadedPackage.Calls`: a method of the package calls `Reset()` of a type.
* `Load.DelegatesTo`: such a type has the method only because it is pending.
* `WritesMethod`: a run has written a method for a type.
* `LoadedPackage.Calls.accepted`: a type that is called has `Reset()`, or is an interface that asks
  for it.
* `Load.delegations_backed_iff`: a successful run backs its delegations exactly when the types are
  declared as structs by packages with files.
* `PendingHandle`: a type that one file declares as a struct and another one as an integer. It is
  pending, so that a pointer to it is reset by a call, and it gets no method.
-/

namespace ResetMethods

/-! ## What a method calls -/

/-- The operands whose `Reset()` a statement calls. -/
def Statement.calls : Statement → List Operand
  | .call e => [e]
  | .guarded _ body => body.calls
  | .assign _ _ => []
  | .clear _ => []
  | .callIfAble _ => []
  | .probe _ _ => []

namespace TypeTable

def pointee? (t : TypeTable) (ty : Ty) : Option Ty :=
  match t.underlying ty with
  | some (.pointer elem) => some elem
  | _ => none

/-- The type of an operand behind some pointers. -/
def behind (t : TypeTable) : Nat → Ty → Option Ty
  | 0, ty => some ty
  | n + 1, ty => (t.behind n ty).bind t.pointee?

/-- The type that declares the methods of an operand: a pointer type that is not a declared one has
the methods of what it points to. -/
def methodsFrom (t : TypeTable) (ty : Ty) : Ty :=
  match t.unalias ty with
  | some (.pointer elem) => elem
  | _ => ty

end TypeTable

/-- A method of the package has a statement for a field that calls `Reset()` of the type. -/
inductive LoadedPackage.Calls (package : LoadedPackage) (s : Surroundings) : Ty → Prop where
  | intro {m : ResetMethod} {d : Declaration} {fields : List (Field Ty)} {f : Field Ty}
      {st : Statement} {e : Operand} {ty : Ty} :
      m ∈ package.methods s → s.table.get? ⟨package.source.path, m.typeName⟩ = some d →
      s.table.underlying d.rhs = some (.struct fields) →
      (f, st) ∈ (fields.filter (Field.isIncluded package.source.path)).zip m.body →
      e ∈ st.calls → s.table.behind e.derefs f.type = some ty →
      Calls package s (s.table.methodsFrom ty)

/-- The type has `Reset()`, or it is an interface that asks for it. -/
def Surroundings.Accepts (s : Surroundings) (ty : Ty) : Prop :=
  s.hasReset ty = true ∨ ∃ methods embeds,
    s.table.underlying ty = some (.interface methods embeds) ∧ s.asksReset methods embeds = true

section Calls

variable {s : Surroundings} {ty root : Ty} {e e' : Operand}

/-- A type that has `Reset()` is a declared one, so its methods are its own. -/
theorem Surroundings.methodsFrom_of_hasReset (h : s.hasReset ty = true) :
    s.table.methodsFrom ty = ty := by
  obtain ⟨n, hn⟩ := exists_unalias_of_hasReset h
  rw [TypeTable.methodsFrom, hn]

theorem Surroundings.calls_resetUnresolved : (s.resetUnresolved e ty).calls = [] := by
  unfold resetUnresolved
  split <;> rfl

/-- The statement for an operand calls what the generator has found to have `Reset()`. -/
theorem Surroundings.accepts_of_mem_calls {fuel : Nat} (hroot : s.table.behind e.derefs root = some ty)
    (he : e' ∈ (s.resetWithin fuel e ty).calls) :
    ∃ u, s.table.behind e'.derefs root = some u ∧ s.Accepts (s.table.methodsFrom u) := by
  induction fuel generalizing e ty with
  | zero =>
    rw [resetWithin] at he
    cases hu : s.table.underlying ty with
    | none => simp [hu, calls_resetUnresolved] at he
    | some shape => simp [hu, Statement.calls] at he
  | succ fuel ih =>
    rw [resetWithin] at he
    cases hu : s.table.underlying ty with
    | none => simp [hu, calls_resetUnresolved] at he
    | some shape =>
      rw [hu] at he
      cases shape with
      | pointer elem =>
        have htarget : s.table.behind e.target.derefs root = some elem := by
          rw [Operand.target, TypeTable.behind, hroot, Option.bind_some, TypeTable.pointee?, hu]
        simp only [Statement.calls] at he
        split at he
        · rename_i hcalled
          have hreset : s.hasReset elem = true := by simp_all
          obtain rfl := List.mem_singleton.1 he
          by_cases hdefined : s.isDefined ty = true
          · rw [if_pos hdefined]
            refine ⟨elem, htarget, .inl ?_⟩
            rw [methodsFrom_of_hasReset hreset]
            exact hreset
          · rw [if_neg hdefined]
            refine ⟨ty, hroot, .inl ?_⟩
            -- the type of the operand is the pointer type itself
            have hbare : s.table.unalias ty = some (.pointer elem) := by
              refine (TypeTable.unalias_cases_of_underlying hu).resolve_left ?_
              rintro ⟨n, hn⟩
              simp [isDefined, hn] at hdefined
            rw [TypeTable.methodsFrom, hbare]
            exact hreset
        · exact ih htarget he
      | struct fields =>
        simp only at he
        split at he
        · rename_i hreset
          obtain rfl := List.mem_singleton.1 he
          refine ⟨ty, hroot, .inl ?_⟩
          rw [methodsFrom_of_hasReset hreset]
          exact hreset
        · cases he
      | interface methods embeds =>
        simp only [Statement.calls] at he
        split at he
        · rename_i hasks
          obtain rfl := List.mem_singleton.1 he
          refine ⟨ty, hroot, .inr ⟨methods, embeds, ?_, hasks⟩⟩
          have hsame : s.table.methodsFrom ty = ty := by
            unfold TypeTable.methodsFrom
            rcases TypeTable.unalias_cases_of_underlying hu with ⟨n, hn⟩ | hn <;> rw [hn]
          rw [hsame]
          exact hu
        · cases he
      | _ => cases he

theorem LoadedPackage.Calls.accepted {sources : List SourcePackage} {package : LoadedPackage}
    (hp : package ∈ (Load.ofSources sources).packages)
    (h : package.Calls (Load.ofSources sources).surroundings ty) :
    (Load.ofSources sources).surroundings.Accepts ty := by
  obtain ⟨source, -, rfl⟩ := List.mem_map.1 hp
  obtain ⟨hm, hd, hu, hst, he, hty⟩ := h
  obtain ⟨target, -, hgives⟩ := mem_methods_iff.1 hm
  rw [SourcePackage.typeName_of_gives hgives] at hd
  obtain ⟨-, d', fields', hd', -, hu', rfl⟩ := SourcePackage.gives_iff.1 hgives
  obtain rfl := Option.some.inj (hd.symm.trans hd')
  cases hu.symm.trans hu'
  rw [← List.map_prod_left_eq_zip] at hst
  obtain ⟨field, -, hfield⟩ := List.mem_map.1 hst
  obtain ⟨rfl, rfl⟩ := Prod.mk.inj hfield
  -- the operand of the field itself stands behind no pointer
  have hfield : (typeTable sources).behind 0 field.type = some field.type := rfl
  obtain ⟨u, hroot, haccepts⟩ := Surroundings.accepts_of_mem_calls hfield he
  cases hty.symm.trans hroot
  exact haccepts

end Calls

/-! ## What a run writes -/

/-- The surroundings in which the type is not pending. -/
def Surroundings.without (s : Surroundings) (k : TypeKey) : Surroundings :=
  { s with pending := s.pending.filter (· ≠ k) }

/-- A method of a package that gets a file calls `Reset()` of the declared type, and the type has it
only because it is pending. -/
def Load.DelegatesTo (load : Load) (d : Declaration) : Prop :=
  ∃ package ∈ load.emitted, ∃ ty, package.Calls load.surroundings ty ∧
    load.table.declaration ty = some d ∧ load.surroundings.hasReset ty = true ∧
    (load.surroundings.without d.key).hasReset ty = false

theorem Load.DelegatesTo.mem_pending {load : Load} {d : Declaration} (h : load.DelegatesTo d) :
    d.key ∈ load.surroundings.pending := by
  obtain ⟨-, -, ty, -, -, hreset, hwithout⟩ := h
  by_contra hout
  have hsame : load.surroundings.without d.key = load.surroundings := by
    unfold Surroundings.without
    congr 1
    refine List.filter_eq_self.2 fun k hk => ?_
    rw [decide_eq_true_eq]
    rintro rfl
    exact hout hk
  rw [hsame, hreset] at hwithout
  cases hwithout

/-- The run has written a file of the type's package, laid out from a text with a method for it. -/
def WritesMethod {σ : Type} (strategies : Strategies σ) (load : Load) (state : σ) (k : TypeKey) :
    Prop :=
  ∃ package ∈ load.emitted, package.source.path = k.package ∧
    (∃ m ∈ package.methods load.surroundings, m.typeName = k.name) ∧
    ∃ contents before after,
      layOut strategies load.surroundings package before = (.ok contents, after) ∧
        (package.outputPath, contents) ∈ (runLoad strategies load state).writes

/-- A package of the declared type's path has files, a target of the type's name and a type of that
name, and the declared type is a struct type. -/
def Declaration.IsGenerated (sources : List SourcePackage) (d : Declaration) : Prop :=
  (∃ source ∈ sources, source.path = d.key.package ∧ source.files ≠ [] ∧
    (∃ target ∈ targets source.sources, target.name = d.name) ∧
    ∃ named, source.definitions.type? d.name = some named) ∧
  ∃ fields, (typeTable sources).underlying d.rhs = some (.struct fields)

section Backed

variable {sources : List SourcePackage} {d : Declaration} {ty : Ty}

theorem get?_of_declaration (hd : (typeTable sources).declaration ty = some d) :
    (typeTable sources).get? d.key = some d ∧ d.isAlias = false := by
  obtain ⟨n, hn, hd⟩ := TypeTable.exists_unalias_of_declaration hd
  have halias := TypeTable.isAlias_of_unaliasWithin hn hd
  rw [TypeTable.lookup] at hd
  rw [key_of_typeTable hd]
  exact ⟨hd, halias⟩

theorem writesMethod_iff {σ : Type} {strategies : Strategies σ} {state : σ} {summary : Summary}
    (h : (runLoad strategies (Load.ofSources sources) state).result = .ok summary)
    (hd : (typeTable sources).get? d.key = some d) (ha : d.isAlias = false) :
    WritesMethod strategies (Load.ofSources sources) state d.key ↔ d.IsGenerated sources := by
  constructor
  · rintro ⟨package, hp, hpath, ⟨m, hm, hname⟩, -⟩
    obtain ⟨hp, hemitted⟩ := List.mem_filter.1 hp
    obtain ⟨source, hsource, rfl⟩ := List.mem_map.1 hp
    obtain ⟨target, htarget, hgives⟩ := LoadedPackage.mem_methods_iff.1 hm
    have htype : target.name = d.name := (SourcePackage.typeName_of_gives hgives).symm.trans hname
    rw [htype] at hgives
    obtain ⟨hnamed, d', fields, hd', -, hu, -⟩ := SourcePackage.gives_iff.1 hgives
    obtain rfl : d' = d := by
      rw [hpath] at hd'
      exact Option.some.inj (hd'.symm.trans hd)
    refine ⟨⟨source, hsource, hpath, ?_, ⟨target, htarget, htype⟩, hnamed⟩, fields, hu⟩
    intro hfiles
    simp [LoadedPackage.isEmitted, hfiles] at hemitted
  · rintro ⟨⟨source, hsource, hpath, hfiles, ⟨target, htarget, hname⟩, hnamed⟩, fields, hu⟩
    have hemitted : (⟨source, source.definitions⟩ : LoadedPackage) ∈
        (Load.ofSources sources).emitted := by
      refine List.mem_filter.2 ⟨List.mem_map_of_mem hsource, ?_⟩
      have htargets : targets source.sources ≠ [] := List.ne_nil_of_mem htarget
      simp [LoadedPackage.isEmitted, LoadedPackage.targets, hfiles, htargets]
    have hkey : (typeTable sources).get? ⟨source.path, d.name⟩ = some d := by
      rw [hpath]
      exact hd
    have hgives := SourcePackage.gives_iff.2 ⟨hnamed, d, fields, hkey, ha, hu, rfl⟩
    generalize ResetMethod.mk _ _ _ = m at hgives
    have htype := SourcePackage.typeName_of_gives hgives
    rw [← hname] at hgives
    exact ⟨_, hemitted, hpath,
      ⟨m, LoadedPackage.mem_methods_iff.2 ⟨target, htarget, hgives⟩, htype⟩,
      exists_write h hemitted⟩

end Backed

/-- The written methods call types that have `Reset()`, or interfaces that ask for it. Where such a
type has it only because it is pending, the run writes its method exactly if a package with files
declares the type as a struct, and not only a target of that name. -/
theorem Load.delegations_backed_iff {σ : Type} (sources : List SourcePackage)
    (strategies : Strategies σ) (state : σ) (summary : Summary)
    (h : (runLoad strategies (Load.ofSources sources) state).result = .ok summary) :
    let load := Load.ofSources sources
    (∀ package ∈ load.emitted, ∀ ty, package.Calls load.surroundings ty →
      load.surroundings.Accepts ty) ∧
    ((∀ d, load.DelegatesTo d → WritesMethod strategies load state d.key) ↔
      ∀ d, load.DelegatesTo d → d.IsGenerated sources) := by
  intro load
  constructor
  · intro package hp ty hcalls
    exact hcalls.accepted (List.mem_of_mem_filter hp)
  · refine forall₂_congr fun d hdelegates => ?_
    obtain ⟨-, -, ty, -, hd, -, -⟩ := hdelegates
    obtain ⟨hd, halias⟩ := get?_of_declaration hd
    exact writesMethod_iff h hd halias

/-! ## A type with two declarations -/

namespace PendingHandle

def handleSpec : TypeSpec :=
  ⟨none, "Handle", [], false, .struct [⟨["N"], .ident "int", none⟩], 6⟩

def connSpec : TypeSpec :=
  ⟨none, "Conn", [], false, .struct [⟨["H"], .pointer (.ident "Handle"), none⟩], 11⟩

def file : SourceFile :=
  ⟨"/model/handle_unix.go", "model", [],
    [.types ⟨some ⟨[directive]⟩, false, [handleSpec]⟩, .types ⟨some ⟨[directive]⟩, false, [connSpec]⟩]⟩

def integerFile (name : String) : SourceFile :=
  ⟨"/model/handle_windows.go", "model", [],
    [.types ⟨none, false, [⟨none, name, [], false, .ident "uintptr", 5⟩]⟩]⟩

def source (name : String) : SourcePackage :=
  ⟨"model", "example.com/app/model", "/model", ["/model/handle_unix.go", "/model/handle_windows.go"],
    [file, integerFile name]⟩

def load (name : String) : Load := .ofSources [source name]

def ref : PackageRef := ⟨"example.com/app/model", "model"⟩

def field (name : String) (type : Ty) : Field Ty := ⟨name, type, false, none, ref.path⟩

def handle : Declaration :=
  ⟨some ref, "Handle", [], false, .struct [field "N" (.basic .int)], []⟩

/-- The declaration of `Handle` that stands when the other file has one. -/
def integer : Declaration := ⟨some ref, "Handle", [], false, .basic .uintptr, []⟩

def conn : Declaration :=
  ⟨some ref, "Conn", [], false, .struct [field "H" (.pointer (.named handle.named))], []⟩

def connReset : ResetMethod :=
  ⟨"obj", "Conn", [.guarded (.ofField "obj" "H") (.call (.ofField "obj" "H"))]⟩

theorem delegatesTo_integer : (load "Handle").DelegatesTo integer := by
  let package : LoadedPackage := ⟨source "Handle", (source "Handle").definitions⟩
  have hmethods : package.methods (load "Handle").surroundings = [connReset] := rfl
  have hmethod : connReset ∈ package.methods (load "Handle").surroundings := by simp [hmethods]
  exact ⟨package, List.mem_cons_self, .named handle.named,
    .intro (d := conn) hmethod rfl rfl List.mem_cons_self List.mem_cons_self rfl, rfl, rfl, rfl⟩

theorem delegatesTo_handle : (load "Code").DelegatesTo handle := by
  let package : LoadedPackage := ⟨source "Code", (source "Code").definitions⟩
  have hmethods : package.methods (load "Code").surroundings =
    [⟨"obj", "Handle", [.assign (.ofField "obj" "N") (.zero .int)]⟩, connReset] := rfl
  have hmethod : connReset ∈ package.methods (load "Code").surroundings := by simp [hmethods]
  exact ⟨package, List.mem_cons_self, .named handle.named,
    .intro (d := conn) hmethod rfl rfl List.mem_cons_self List.mem_cons_self rfl, rfl, rfl, rfl⟩

theorem isGenerated {d : Declaration} (h : (load "Code").DelegatesTo d) :
    d.IsGenerated [source "Code"] := by
  obtain ⟨-, -, ty, -, hd, -, -⟩ := id h
  obtain ⟨hd, -⟩ := get?_of_declaration hd
  have hpending : d.key ∈ [(⟨ref.path, "Handle"⟩ : TypeKey), ⟨ref.path, "Conn"⟩] := h.mem_pending
  have htargets : targets (source "Code").sources =
      [⟨"Handle", "/model/handle_unix.go", 6⟩, ⟨"Conn", "/model/handle_unix.go", 11⟩] := rfl
  rcases List.mem_cons.1 hpending with hkey | hpending
  · have hhandle : (typeTable [source "Code"]).get? ⟨ref.path, "Handle"⟩ = some handle := rfl
    rw [hkey, hhandle] at hd
    cases hd
    exact ⟨⟨_, List.mem_cons_self, rfl, List.cons_ne_nil _ _,
      ⟨_, htargets ▸ List.mem_cons_self, rfl⟩, _, rfl⟩, _, rfl⟩
  · have hconn : (typeTable [source "Code"]).get? ⟨ref.path, "Conn"⟩ = some conn := rfl
    rw [List.mem_singleton.1 hpending, hconn] at hd
    cases hd
    exact ⟨⟨_, List.mem_cons_self, rfl, List.cons_ne_nil _ _,
      ⟨_, htargets ▸ List.mem_cons_of_mem _ List.mem_cons_self, rfl⟩, _, rfl⟩, _, rfl⟩

end PendingHandle

namespace Load

/-- A method is written that calls `Reset()` of a type, and the run succeeds without a method for
that type. -/
theorem delegation_unbacked :
    let load := PendingHandle.load "Handle"
    (∃ summary, (runLoad .verbatim load ()).result = .ok summary) ∧
      ∃ d, load.DelegatesTo d ∧ ¬ WritesMethod .verbatim load () d.key := by
  intro load
  have hrun := Strategies.succeeds_verbatim.produces load ()
  refine ⟨⟨_, hrun.result⟩, PendingHandle.integer, PendingHandle.delegatesTo_integer, fun hwrites => ?_⟩
  obtain ⟨-, fields, hu⟩ := (writesMethod_iff hrun.result rfl rfl).1 hwrites
  cases hu

/-- Where no other type bears the name, the run writes the method that is called. -/
theorem delegations_backed_sample :
    (PendingHandle.load "Code").DelegatesTo PendingHandle.handle ∧
      ∀ d, (PendingHandle.load "Code").DelegatesTo d →
        WritesMethod .verbatim (PendingHandle.load "Code") () d.key := by
  have hrun := Strategies.succeeds_verbatim.produces (PendingHandle.load "Code") ()
  refine ⟨PendingHandle.delegatesTo_handle, ?_⟩
  refine (delegations_backed_iff [PendingHandle.source "Code"] .verbatim () _ hrun.result).2.2 ?_
  exact fun d h => PendingHandle.isGenerated h

end Load

end ResetMethods
