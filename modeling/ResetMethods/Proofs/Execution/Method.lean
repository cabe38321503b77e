import Mathlib.Data.List.Forall2
import ResetMethods.Proofs.Execution.Effect
import ResetMethods.Proofs.Types.Chain

/-!
# ResetMethods.Proofs.Execution.Method

What a whole `Reset()` method leaves in the receiver.

* `IsRecord`: the fields of a struct with their values.
* `Runtime.ResetsRecord`: every included field is reset by the shape of its type, and every other
  one is left as it was.
* `Statement.takeAll_fields`: the statements for the fields do this, whatever fields stand before.
* `ResetMethod.run_resets`: so does the text of the method of a struct type. It returns at once for a
  `nil` receiver, no `nil` is ever followed, and to run the method again changes nothing.
* `aliasedInt`: a field behind as many aliases as a walk looks at is set to `nil`, whatever its
  type.
-/

namespace ResetMethods

open Text (closeBrace openBrace)

/-- The fields of a struct and their values. Fields that can be selected differ in their names. -/
structure IsRecord (t : TypeTable) (x : Externals) (fields : List (Field Ty))
    (values : List GoValue) : Prop where
  distinct : fields.Pairwise fun f g => f.name = g.name → f.name = "_" ∨ f.name = ""
  typed : List.Forall₂ (fun f v => HasType t x v f.type) fields values

/-- What becomes of the fields of a struct when those that a method of `host` includes are reset. -/
inductive Runtime.ResetsRecord (s : Surroundings) (R : Runtime s.table) (host : String) :
    List (Field Ty) → List GoValue → List GoValue → Prop where
  | nil : ResetsRecord s R host [] [] []
  | included {f : Field Ty} {v w : GoValue} {fields : List (Field Ty)}
      {values after : List GoValue} :
      f.isIncluded host = true → R.Resets s f.type v w → ResetsRecord s R host fields values after →
      ResetsRecord s R host (f :: fields) (v :: values) (w :: after)
  | kept {f : Field Ty} {v : GoValue} {fields : List (Field Ty)} {values after : List GoValue} :
      f.isIncluded host = false → ResetsRecord s R host fields values after →
      ResetsRecord s R host (f :: fields) (v :: values) (v :: after)

/-- The included fields hold values that can be reset. -/
def FitsRecord (s : Surroundings) (x : Externals) (host : String) :
    List (Field Ty) → List GoValue → Prop :=
  List.Forall₂ fun f v => f.isIncluded host = true → Fits s x f.type v

section Records

variable {s : Surroundings} {R : Runtime s.table} {host : String} {fields : List (Field Ty)}
  {values after again : List GoValue}

theorem IsRecord.fits {x : Externals} {n : Nat} (h : IsRecord s.table x fields values)
    (hp : ∀ f ∈ fields, f.isIncluded host = true → s.table.Plain chainLimit n f.type) :
    FitsRecord s x host fields values := by
  have ht := h.typed
  clear h
  induction ht with
  | nil => exact .nil
  | cons hv _ ih =>
    obtain ⟨hf, hp⟩ := List.forall_mem_cons.1 hp
    exact .cons (fun hi => hv.fits (hf hi)) (ih hp)

theorem Runtime.ResetsRecord.fits (h : R.ResetsRecord s host fields values after)
    (hv : FitsRecord s R.toExternals host fields values) :
    FitsRecord s R.toExternals host fields after := by
  induction h with
  | nil => exact hv
  | included hi hr _ ih =>
    obtain _ | ⟨hf, hv⟩ := hv
    exact .cons (fun hi => hr.fits (hf hi)) (ih hv)
  | kept hi _ ih =>
    obtain _ | ⟨hf, hv⟩ := hv
    exact .cons hf (ih hv)

theorem Runtime.ResetsRecord.idem (h : R.ResetsRecord s host fields values after)
    (h' : R.ResetsRecord s host fields after again) : again = after := by
  induction h generalizing again with
  | nil => cases h'; rfl
  | included hi hr _ ih =>
    cases h' with
    | included _ hr' h' => rw [hr.idem hr', ih h']
    | kept hi' => simp [hi] at hi'
  | kept hi _ ih =>
    cases h' with
    | included hi' => simp [hi] at hi'
    | kept _ h' => rw [ih h']

end Records

/-! ## All statements -/

section Fields

variable {s : Surroundings} {R : Runtime s.table} {host receiver : String}

/-- A field is found by its name. -/
theorem Frame.index?_ofField {before rest : List (Field Ty)} {f : Field Ty}
    (h : ∀ g ∈ before, g.name ≠ f.name) :
    Frame.index? ⟨receiver, before ++ f :: rest⟩ (.ofField receiver f.name) =
      some before.length := by
  have hb : before.findIdx? (·.name == f.name) = none := by
    rw [List.findIdx?_eq_none_iff]
    intro g hg
    exact beq_eq_false_iff_ne.2 (h g hg)
  simp [index?, Operand.ofField, List.findIdx?_append, hb, List.findIdx?_cons]

/-- The statement for one field works on that field only. -/
theorem Statement.takes_reset_field (receiver : String) (rest : List (Field Ty))
    (values : List GoValue) {n : Nat} {before : List (Field Ty)} {f : Field Ty}
    {left : List GoValue} {v : GoValue} (h : ∀ g ∈ before, g.name ≠ f.name)
    (hn : left.length = before.length) (hp : s.table.Plain chainLimit n f.type)
    (hv : Fits s R.toExternals f.type v) :
    ∃ w, (s.resetWithin (n + 1) (.ofField receiver f.name) f.type).Takes R
        ⟨receiver, before ++ f :: rest⟩ (left ++ v :: values) (left ++ w :: values) ∧
      R.Resets s f.type v w := by
  have hl : Located s.table ⟨receiver, before ++ f :: rest⟩ (left ++ v :: values)
      (.ofField receiver f.name) before.length v f.type v :=
    ⟨Frame.index?_ofField h, by simp [← hn], f, by simp, rfl⟩
  obtain ⟨w, htakes, hw⟩ := takes_resetWithin hp hl hv
  refine ⟨w, ?_, hw⟩
  rw [← hn] at htakes
  simpa [Operand.ofField, GoValue.setBehind] using htakes

/-- The statements for some fields, one after the other. The fields `before` have been dealt with
and hold `left`. -/
theorem Statement.takeAll_fields {before fields : List (Field Ty)} {left values : List GoValue}
    (hd : (before ++ fields).Pairwise fun f g => f.name = g.name → f.name = "_" ∨ f.name = "")
    (hn : left.length = before.length)
    (hp : ∀ f ∈ fields, f.isIncluded host = true → s.table.Plain chainLimit depthLimit f.type)
    (hv : FitsRecord s R.toExternals host fields values) :
    ∃ after, TakeAll R ⟨receiver, before ++ fields⟩
        ((fields.filter (Field.isIncluded host)).map fun f =>
          s.reset (.ofField receiver f.name) f.type) (left ++ values) (left ++ after) ∧
      R.ResetsRecord s host fields values after := by
  induction fields generalizing before left values with
  | nil =>
    cases hv
    exact ⟨[], rfl, .nil⟩
  | cons f rest ih =>
    obtain _ | @⟨_, v, _, values, hf, hv⟩ := hv
    obtain ⟨hpf, hp⟩ := List.forall_mem_cons.1 hp
    have hd' : ((before ++ [f]) ++ rest).Pairwise
        fun f g => f.name = g.name → f.name = "_" ∨ f.name = "" := by
      simpa using hd
    have hn' (w : GoValue) : (left ++ [w]).length = (before ++ [f]).length := by simp [hn]
    cases hi : f.isIncluded host with
    | false =>
      obtain ⟨after, htake, hafter⟩ := ih hd' (hn' v) hp hv
      simp only [List.append_assoc, List.singleton_append] at htake
      refine ⟨v :: after, ?_, .kept hi hafter⟩
      rw [List.filter_cons_of_neg (by simp [hi])]
      exact htake
    | true =>
      have hne : ∀ g ∈ before, g.name ≠ f.name := by
        intro g hg he
        have hb := (List.pairwise_append.1 hd).2.2 g hg f List.mem_cons_self he
        simp [Field.isIncluded, ← he] at hi
        simp_all
      obtain ⟨w, htakes, hw⟩ :=
        takes_reset_field receiver rest values hne hn (hpf hi) (hf hi)
      obtain ⟨after, hrest, hafter⟩ := ih hd' (hn' w) hp hv
      simp only [List.append_assoc, List.singleton_append] at hrest
      refine ⟨w :: after, ?_, .included hi hw hafter⟩
      rw [List.filter_cons_of_pos hi, List.map_cons]
      exact .cons htakes hrest

/-- The statements for all fields. -/
theorem Statement.takeAll_record (receiver : String) {fields : List (Field Ty)}
    {values : List GoValue}
    (hd : fields.Pairwise fun f g => f.name = g.name → f.name = "_" ∨ f.name = "")
    (hp : ∀ f ∈ fields, f.isIncluded host = true → s.table.Plain chainLimit depthLimit f.type)
    (hv : FitsRecord s R.toExternals host fields values) :
    ∃ after, TakeAll R ⟨receiver, fields⟩ ((fields.filter (Field.isIncluded host)).map fun f =>
        s.reset (.ofField receiver f.name) f.type) values after ∧
      R.ResetsRecord s host fields values after := by
  have hn : ([] : List GoValue).length = ([] : List (Field Ty)).length := rfl
  have h := @takeAll_fields s R host receiver [] fields [] values hd hn hp hv
  simpa using h

end Fields

theorem ResetMethod.of?_eq_some {s : Surroundings} (receiver : String) {n : Named Ty}
    {d : Declaration} {fields : List (Field Ty)} (hd : s.table.lookup n = some d)
    (ha : d.isAlias = false) (hu : s.table.underlying d.rhs = some (.struct fields)) :
    of? s receiver n = some ⟨receiver, d.name,
      (fields.filter (Field.isIncluded d.key.package)).map fun f =>
        s.reset (.ofField receiver f.name) f.type⟩ := by
  simp [of?, hd, ha, hu]

/-- The lines of the method of a struct type are those of its tree, between its header and its last
brace. Run, the tree does nothing on a `nil` receiver. On a record of the type's fields it runs
without a fault, whatever the record holds: the included fields are reset by the shapes of their
types, and the other ones are as before. To run it again changes nothing. -/
theorem ResetMethod.run_resets (s : Surroundings) (R : Runtime s.table) (receiver : String)
    {n : Named Ty} {d : Declaration} {fields : List (Field Ty)} {values : List GoValue}
    (hd : s.table.lookup n = some d) (ha : d.isAlias = false)
    (hu : s.table.underlying d.rhs = some (.struct fields))
    (hp : ∀ f ∈ fields, f.isIncluded d.key.package = true →
      s.table.Plain chainLimit depthLimit f.type)
    (hv : IsRecord s.table R.toExternals fields values) :
    ∃ m after, ResetMethod.of? s receiver n = some m ∧
      (∀ spell : Ty → String, m.lines spell =
        ⟨0, "func (" ++ m.receiver ++ " *" ++ m.typeName ++ ") Reset() " ++ openBrace⟩ ::
          m.code.lines spell 1 ++ [⟨0, closeBrace⟩]) ∧
      m.run R fields none = .ok none ∧
      m.run R fields (some values) = .ok (some after) ∧
      R.ResetsRecord s d.key.package fields values after ∧
      m.run R fields (some after) = .ok (some after) := by
  have hfits := hv.fits hp
  obtain ⟨after, htake, hafter⟩ := Statement.takeAll_record receiver hv.distinct hp hfits
  obtain ⟨again, htake', hagain⟩ :=
    Statement.takeAll_record receiver hv.distinct hp (hafter.fits hfits)
  rw [hafter.idem hagain] at htake'
  have hm := of?_eq_some receiver hd ha hu
  exact ⟨_, after, hm, fun spell => lines_eq_code spell _, run_none R fields _,
    run_of_takeAll htake, hafter, run_of_takeAll htake'⟩

/-! ## A sample -/

namespace Sample

/-- A struct with a field of each kind that keeps or loses something of its own. -/
def fields : List (Field Ty) :=
  [field "I" (.basic .int), field "Slice" (.slice (.basic .int)),
    field "PtrToStruct" (.pointer (.named (ref "Other"))),
    field "PtrWithReset" (.pointer (.named (ref "CustomReset"))),
    field "InterfaceReset" (.named (ref "Resettable"))]

def declarations : List Declaration :=
  [declare "Sample" (.struct fields) [],
    declare "Other" (.struct [field "N" (.basic .int)]) [],
    declare "CustomReset" (.struct [field "N" (.basic .int)]) [reset],
    declare "Resettable" (.interface [⟨"Reset", ⟨[], [], false⟩⟩] []) []]

def surroundings : Surroundings := ⟨.ofDeclarations declarations, []⟩

/-- Lengths are not needed, and `Reset()` sets the only field of its receiver to 0. -/
noncomputable def runtime : Runtime surroundings.table :=
  .ofReset ⟨fun _ => 0, fun _ => default⟩ (fun _ _ => .struct [.scalar "0"]) (fun _ _ => rfl)
    fun _ => true

/-- A struct that is not reset yet. -/
def values : List GoValue :=
  [.scalar "7", .slice (some [.scalar "1"]), .pointer (some (.struct [.scalar "2"])), .pointer none,
    .interface (some (.named (ref "CustomReset"), .struct [.scalar "3"]))]

theorem hasType_struct {ty : Ty} {literal : String}
    (h : surroundings.table.shape? ty = some (.struct [field "N" (.basic .int)])) :
    HasType surroundings.table runtime.toExternals (.struct [.scalar literal]) ty := by
  refine .struct h rfl fun i f v hf hv => ?_
  cases i with
  | zero => cases hf; cases hv; exact .scalar _ rfl
  | succ i => cases hf

theorem isRecord : IsRecord surroundings.table runtime.toExternals fields values where
  distinct := by decide
  typed := by
    refine .cons (.scalar _ rfl) <| .cons (.slice rfl ?_) <| .cons (.pointer rfl ?_) <|
      .cons (.nilPointer rfl) <| .cons (.interface rfl ?_) .nil
    · intro v hv
      rw [List.mem_singleton.1 hv]
      exact .scalar _ rfl
    all_goals exact hasType_struct rfl

theorem plain {f : Field Ty} (h : f ∈ fields) :
    surroundings.table.Plain chainLimit depthLimit f.type := by
  simp only [fields, List.mem_cons, List.not_mem_nil, or_false] at h
  obtain rfl | rfl | rfl | rfl | rfl := h
  · exact .other rfl fun _ => nofun
  · exact .other rfl fun _ => nofun
  · exact .pointer rfl (.other rfl fun _ => nofun)
  · exact .pointer rfl (.other rfl fun _ => nofun)
  · exact .other rfl fun _ => nofun

end Sample

theorem ResetMethod.run_resets_sample :
    ∃ m after, ResetMethod.of? Sample.surroundings "obj" (Sample.ref "Sample") = some m ∧
      (∀ spell : Ty → String, m.lines spell =
        ⟨0, "func (" ++ m.receiver ++ " *" ++ m.typeName ++ ") Reset() " ++ openBrace⟩ ::
          m.code.lines spell 1 ++ [⟨0, closeBrace⟩]) ∧
      m.run Sample.runtime Sample.fields none = .ok none ∧
      m.run Sample.runtime Sample.fields (some Sample.values) = .ok (some after) ∧
      Sample.runtime.ResetsRecord Sample.surroundings "p" Sample.fields Sample.values after ∧
      m.run Sample.runtime Sample.fields (some after) = .ok (some after) :=
  ResetMethod.run_resets Sample.surroundings Sample.runtime "obj"
    (d := Sample.declare "Sample" (.struct Sample.fields) []) rfl rfl rfl
    (fun _ hf _ => Sample.plain hf) Sample.isRecord

/-! ## A field behind too many aliases -/

/-- Where a walk gives up before the end of some aliases, an operand is set to `nil`. -/
theorem Surroundings.reset_link {s : Surroundings} {length : Nat} (h : s.table.HasLinks length)
    (hl : chainLimit ≤ length) (e : Operand) :
    s.reset e (TypeTable.link length 0) = .assign e .null := by
  have hu : s.table.underlying (TypeTable.link length 0) = none :=
    TypeTable.underlyingWithin_link h (by omega)
  have ha : s.table.unalias (TypeTable.link length 0) = none :=
    TypeTable.unaliasWithin_link h (by omega)
  rw [reset, resetWithin, hu]
  simp only
  rw [resetUnresolved, ha]

namespace Aliased

/-- A struct with a number behind as many aliases as a walk looks at. -/
def fields : List (Field Ty) := [Sample.field "X" (TypeTable.link chainLimit 0)]

def declaration : Declaration := Sample.declare "S" (.struct fields) []

def declarations : List Declaration := declaration :: TypeTable.linkDeclarations chainLimit

def surroundings : Surroundings := ⟨.ofDeclarations declarations, []⟩

noncomputable def runtime : Runtime surroundings.table :=
  .ofReset ⟨fun _ => 0, fun _ => default⟩ (fun _ v => v) (fun _ _ => rfl) fun _ => false

theorem key_ne (i : Nat) : declaration.key ≠ (TypeTable.linkDeclaration chainLimit i).key := by
  intro h
  rw [TypeTable.linkDeclaration_key] at h
  have hn : "S" = String.ofList (List.replicate (i + 1) 'A') := congrArg TypeKey.name h
  have hc := congrArg (fun name => name.toList.head?) hn
  simp [List.replicate_succ] at hc

theorem declarations_pairwise : declarations.Pairwise fun d e => d.key ≠ e.key := by
  refine List.pairwise_cons.2 ⟨?_, TypeTable.linkDeclarations_pairwise chainLimit⟩
  intro d hd
  obtain ⟨i, -, rfl⟩ := List.mem_map.1 hd
  exact key_ne i

theorem lookup_eq : surroundings.table.lookup (Sample.ref "S") = some declaration :=
  TypeTable.lookup_ofDeclarations declarations_pairwise List.mem_cons_self rfl

theorem hasLinks : surroundings.table.HasLinks chainLimit := by
  intro i hi
  have hm : TypeTable.linkDeclaration chainLimit i ∈ declarations :=
    List.mem_cons_of_mem _ (List.mem_map.2 ⟨i, List.mem_range.2 hi, rfl⟩)
  exact TypeTable.lookup_ofDeclarations declarations_pairwise hm rfl

theorem shape?_link :
    surroundings.table.shape? (TypeTable.link chainLimit 0) = some (.basic .int) :=
  TypeTable.shapeWithin_mono (TypeTable.shapeWithin_link hasLinks (Nat.zero_add _))
    (TypeTable.chainLimit_lt_walkLimit lookup_eq)

theorem of?_eq : ResetMethod.of? surroundings "obj" (Sample.ref "S") =
    some ⟨"obj", "S", [.assign (.ofField "obj" "X") .null]⟩ := by
  have hf : fields.filter (Field.isIncluded declaration.key.package) = fields :=
    List.filter_cons_of_pos (by decide)
  rw [ResetMethod.of?_eq_some "obj" lookup_eq rfl rfl, hf, fields, List.map_singleton]
  simp only [Sample.field, Surroundings.reset_link hasLinks (Nat.le_refl _)]
  rfl

end Aliased

/-- The chain of aliases ends at `int`, and yet the method does not fit the type of the field. -/
theorem ResetMethod.run_faults_behind_aliases :
    Aliased.surroundings.table.lookup (Sample.ref "S") = some Aliased.declaration ∧
      (∀ f ∈ Aliased.fields, Aliased.surroundings.table.Plain (chainLimit + 1) depthLimit f.type) ∧
      IsRecord Aliased.surroundings.table Aliased.runtime.toExternals Aliased.fields
        [.scalar "7"] ∧
      ∃ m, ResetMethod.of? Aliased.surroundings "obj" (Sample.ref "S") = some m ∧
        m.run Aliased.runtime Aliased.fields (some [.scalar "7"]) = .error .illTyped := by
  have hs := TypeTable.shapeWithin_link Aliased.hasLinks (Nat.zero_add _)
  refine ⟨Aliased.lookup_eq, ?_, ⟨by simp [Aliased.fields], ?_⟩, ?_⟩
  · intro f hf
    rw [List.mem_singleton.1 hf]
    exact .other hs fun _ => nofun
  · exact .cons (.scalar _ Aliased.shape?_link) .nil
  · refine ⟨_, Aliased.of?_eq, ?_⟩
    have hl : Located Aliased.surroundings.table ⟨"obj", Aliased.fields⟩ [.scalar "7"]
        (.ofField "obj" "X") 0 (.scalar "7") (TypeTable.link chainLimit 0) (.scalar "7") :=
      ⟨rfl, rfl, _, rfl, rfl⟩
    have hnil : Aliased.surroundings.table.nilValue (TypeTable.link chainLimit 0) =
        .error .illTyped := by
      rw [TypeTable.nilValue, Aliased.shape?_link]
      rfl
    exact run_error (Statement.exec_assign_error hl (Runtime.valueFor_null.trans hnil))

end ResetMethods
