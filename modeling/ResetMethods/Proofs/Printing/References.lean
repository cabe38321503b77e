import ResetMethods.Proofs.Imports.Pieces
import ResetMethods.Proofs.Printing.Occurrences

/-!
# ResetMethods.Proofs.Printing.References

The names of packages in printed text.

* `Ty.mem_pieces_iff`: the text of a type holds a name of a package if and only if the type refers to
  it (`Ty.Refers`), and the name stands behind the qualifier of its package.
* `ResetMethod.mem_pieces_iff`: the text of a method holds the names that the types in it hold.
* `LoadedPackage.exists_reference_iff`: so the text of all methods of a package holds the names that
  the occurrences refer to which the methods spell.

Separators, brackets and keywords are no names, so a list in any of these forms holds the names that
its items hold.
-/

namespace ResetMethods

theorem exists_mem_flatMap {α β : Type} {l : List α} {f : α → List β} {P : β → Prop} :
    (∃ b ∈ l.flatMap f, P b) ↔ ∃ a ∈ l, ∃ b ∈ f a, P b := by
  constructor
  · rintro ⟨b, hb, hP⟩
    obtain ⟨a, ha, hb⟩ := List.mem_flatMap.1 hb
    exact ⟨a, ha, b, hb, hP⟩
  · rintro ⟨a, ha, b, hb, hP⟩
    exact ⟨b, List.mem_flatMap.2 ⟨a, ha, hb⟩, hP⟩

section Lists

variable {p : PackageRef} {a name : String} {ps : List Piece} {items : List (List Piece)}

namespace Piece

theorem mem_join {sep : String} :
    .reference p a name ∈ join sep items ↔ ∃ ps ∈ items, .reference p a name ∈ ps := by
  induction items with
  | nil => simp [join]
  | cons ps items ih =>
    cases items with
    | nil => simp [join]
    | cons rs items => simp [join, ih]

theorem mem_bracketed :
    .reference p a name ∈ bracketed items ↔ ∃ ps ∈ items, .reference p a name ∈ ps := by
  cases items with
  | nil => simp [bracketed]
  | cons ps items => simp only [bracketed, List.mem_append, List.mem_cons, mem_join]; simp

theorem mem_results :
    .reference p a name ∈ results items ↔ ∃ ps ∈ items, .reference p a name ∈ ps := by
  cases items with
  | nil => simp [results]
  | cons ps items =>
    cases items with
    | nil => simp [results]
    | cons rs items => simp only [results, List.mem_append, List.mem_cons, mem_join]; simp

theorem mem_members {keyword : String} :
    .reference p a name ∈ members keyword items ↔ ∃ ps ∈ items, .reference p a name ∈ ps := by
  cases items with
  | nil => simp [members]
  | cons ps items => simp only [members, List.mem_append, List.mem_cons, mem_join]; simp

theorem mem_channel {direction : Direction} :
    .reference p a name ∈ channel direction ps ↔ .reference p a name ∈ ps := by
  cases direction with
  | send => simp [channel]
  | receive => simp [channel]
  | both =>
    rw [channel]
    split <;> simp

theorem mem_line {indent : Nat} :
    .reference p a name ∈ line indent ps ↔ .reference p a name ∈ ps := by
  simp [line]

end Piece
end Lists

/-! ## Types -/

section Types

variable {q : PackageRef → String} {p : PackageRef} {a name : String}

theorem Ty.piecesOfAll_eq (q : PackageRef → String) (tys : List Ty) :
    Ty.piecesOfAll q tys = tys.map (·.pieces q) := by
  induction tys with
  | nil => rfl
  | cons ty rest ih => rw [Ty.piecesOfAll, ih, List.map_cons]

theorem Ty.piecesOfFields_eq (q : PackageRef → String) (fields : List (Field Ty)) :
    Ty.piecesOfFields q fields = fields.map (Field.pieces q) := by
  induction fields with
  | nil => rfl
  | cons field rest ih => rw [Ty.piecesOfFields, ih, List.map_cons]

theorem Ty.piecesOfMethods_eq (q : PackageRef → String) (methods : List (MethodSpec Ty)) :
    Ty.piecesOfMethods q methods = methods.map (MethodSpec.pieces q) := by
  induction methods with
  | nil => rfl
  | cons method rest ih => rw [Ty.piecesOfMethods, ih, List.map_cons]

theorem Ty.mem_piecesOfAll {tys : List Ty} :
    (∃ ps ∈ Ty.piecesOfAll q tys, .reference p a name ∈ ps) ↔
      ∃ ty ∈ tys, .reference p a name ∈ ty.pieces q := by
  rw [piecesOfAll_eq]
  simp

/-- A variadic parameter is written by its element, which is its only part. -/
theorem Ty.mem_piecesOfParams {variadic : Bool} {params : List Ty} :
    (∃ ps ∈ Ty.piecesOfParams q variadic params, .reference p a name ∈ ps) ↔
      ∃ ty ∈ params, .reference p a name ∈ ty.pieces q := by
  induction params with
  | nil => simp [Ty.piecesOfParams]
  | cons ty rest ih =>
    cases rest with
    | nil => cases ty <;> simp [Ty.piecesOfParams, Ty.pieces]
    | cons next rest =>
      have hcons : Ty.piecesOfParams q variadic (ty :: next :: rest) =
          ty.pieces q :: Ty.piecesOfParams q variadic (next :: rest) := by cases ty <;> rfl
      rw [hcons, List.exists_mem_cons_iff, ih]
      simp

theorem Signature.mem_pieces {signature : Signature Ty} :
    .reference p a name ∈ Signature.pieces q signature ↔
      ∃ part ∈ signature.parts, .reference p a name ∈ part.pieces q := by
  obtain ⟨params, results, variadic⟩ := signature
  simp only [Signature.pieces, Signature.parts, List.mem_append, List.mem_cons, Piece.mem_join,
    Piece.mem_results, Ty.mem_piecesOfParams, Ty.mem_piecesOfAll, or_and_right, exists_or]
  simp

theorem Field.mem_pieces {f : Field Ty} :
    .reference p a name ∈ Field.pieces q f ↔ .reference p a name ∈ f.type.pieces q := by
  obtain ⟨fieldName, type, embedded, tag, package⟩ := f
  simp [Field.pieces]

theorem MethodSpec.mem_pieces {m : MethodSpec Ty} :
    .reference p a name ∈ MethodSpec.pieces q m ↔
      ∃ part ∈ m.signature.parts, .reference p a name ∈ part.pieces q := by
  obtain ⟨methodName, signature⟩ := m
  rw [MethodSpec.pieces, List.mem_cons, Signature.mem_pieces]
  simp

theorem Piece.reference_eq_iff {package : PackageRef} {ident : String} :
    Piece.reference p a name = .reference package (q package) ident ↔
      some (package, ident) = some (p, name) ∧ a = q p := by
  constructor
  · rintro ⟨⟩
    exact ⟨rfl, rfl⟩
  · rintro ⟨⟨⟩, rfl⟩
    rfl

/-- The names in the text of a type: the one that it is, and those in its parts. -/
theorem Ty.mem_pieces {ty : Ty} :
    .reference p a name ∈ ty.pieces q ↔
      (ty.reference? = some (p, name) ∧ a = q p) ∨
        ∃ c ∈ ty.children, .reference p a name ∈ c.pieces q := by
  cases ty with
  | basic kind =>
    cases kind with
    | unsafePointer =>
      rw [pieces, List.mem_singleton, Piece.reference_eq_iff]
      simp [reference?, children]
    | _ => simp [pieces, reference?, children]
  | named n =>
    obtain ⟨package, ident, args⟩ := n
    cases package with
    | none => simp [pieces, Named.pieces, reference?, children, Piece.mem_bracketed, mem_piecesOfAll]
    | some package =>
      rw [pieces, Named.pieces, List.mem_cons, Piece.reference_eq_iff, Piece.mem_bracketed,
        mem_piecesOfAll]
      rfl
  | pointer elem => simp [pieces, reference?, children]
  | slice elem => simp [pieces, reference?, children]
  | array length elem => simp [pieces, reference?, children]
  | map key value => simp [pieces, reference?, children]
  | channel direction elem => simp [pieces, reference?, children, Piece.mem_channel]
  | function signature => simp [pieces, reference?, children, Signature.mem_pieces]
  | struct fields =>
    rw [pieces, Piece.mem_members, piecesOfFields_eq]
    simp [reference?, children, Field.mem_pieces]
  | interface methods embeds =>
    rw [pieces, Piece.mem_members, piecesOfMethods_eq, piecesOfAll_eq]
    simp only [children, List.mem_append, or_and_right, exists_or, exists_mem_flatMap]
    simp [reference?, MethodSpec.mem_pieces]
  | typeParam ident => simp [pieces, reference?, children]

/-- The text of a type holds the names that the type refers to, each behind its qualifier. -/
theorem Ty.mem_pieces_iff {ty : Ty} :
    .reference p a name ∈ ty.pieces q ↔ ty.Refers p name ∧ a = q p := by
  induction ty using children_induction with
  | h ty ih =>
    rw [mem_pieces]
    constructor
    · rintro (⟨hself, ha⟩ | ⟨c, hc, hm⟩)
      · exact ⟨⟨ty, .refl _, hself⟩, ha⟩
      · obtain ⟨⟨u, hu, hreference⟩, ha⟩ := (ih c hc).1 hm
        exact ⟨⟨u, .head hc hu, hreference⟩, ha⟩
    · rintro ⟨⟨u, hu, hreference⟩, ha⟩
      rcases mentions_iff.1 hu with rfl | ⟨c, hc, hcu⟩
      · exact .inl ⟨hreference, ha⟩
      · exact .inr ⟨c, hc, (ih c hc).2 ⟨⟨u, hcu, hreference⟩, ha⟩⟩

end Types

/-! ## Methods -/

section Methods

variable {q : PackageRef → String} {p : PackageRef} {a name : String}

theorem Statement.mem_pieces {st : Statement} {indent : Nat} :
    .reference p a name ∈ st.pieces q indent ↔
      ∃ ty ∈ st.types, .reference p a name ∈ ty.pieces q := by
  induction st generalizing indent with
  | assign e value => cases value <;> simp [pieces, types, Value.pieces, Piece.mem_line]
  | clear e => simp [pieces, types, Piece.mem_line]
  | call e => simp [pieces, types, Piece.mem_line]
  | guarded e body ih => simp [pieces, types, Piece.mem_line, ih]
  | callIfAble e => simp [pieces, types, Piece.mem_line]
  | probe e type => simp [pieces, types, Piece.mem_line]

theorem ResetMethod.mem_pieces_iff {m : ResetMethod} :
    .reference p a name ∈ m.pieces q ↔ ∃ ty ∈ m.types, ty.Refers p name ∧ a = q p := by
  have hblank : .reference p a name ∉ if m.body.isEmpty then [] else Piece.line 0 [.plain ""] := by
    split <;> simp [Piece.mem_line]
  rw [types, exists_mem_flatMap]
  simp only [pieces, List.mem_append, Piece.mem_line, List.mem_flatMap, Statement.mem_pieces,
    hblank, ← Ty.mem_pieces_iff]
  simp

/-- What stands before the names of a package in the file that is generated. -/
def LoadedPackage.qualifier (package : LoadedPackage) (s : Surroundings) : PackageRef → String :=
  (package.viewpoint s.table).qualifier (package.aliases s)

/-- A qualifier is an alias with a dot exactly for the packages other than the host. -/
theorem LoadedPackage.exists_qualifier_iff {package : LoadedPackage} {s : Surroundings} :
    (∃ aliasName, aliasName ++ "." = package.qualifier s p) ↔ p.path ≠ package.source.path := by
  unfold qualifier Viewpoint.qualifier
  split
  · rename_i hhost
    refine iff_of_false ?_ (by simpa [viewpoint] using hhost)
    rintro ⟨aliasName, h⟩
    simpa using congrArg String.length h
  · rename_i hforeign
    exact iff_of_true ⟨_, rfl⟩ (by simpa [viewpoint] using hforeign)

/-- The text of the methods of a package holds the names that the spelled occurrences refer to. -/
theorem LoadedPackage.exists_reference_iff {package : LoadedPackage} {s : Surroundings} :
    (∃ m ∈ package.methods s, .reference p a name ∈ m.pieces q) ↔
      ∃ o ∈ package.spelled s, o.type.Refers p name ∧ a = q p := by
  have htypes : (∃ o ∈ package.spelled s, o.type.Refers p name ∧ a = q p) ↔
      ∃ ty ∈ (package.spelled s).map (·.type), ty.Refers p name ∧ a = q p := by simp
  rw [htypes, ← types_methods, exists_mem_flatMap]
  simp only [ResetMethod.mem_pieces_iff]

end Methods

end ResetMethods
