import ResetMethods.Proofs.Source.Moves
import ResetMethods.Source.FileGrammar

/-!
# ResetMethods.Proofs.Source.Positioned

The items of a file and the types of a group, with where they stand.

* `Position`, `Positioned`: an element of a list with its first token and what stands before it.
* `FileGrammar.locate?`: the items of a text with their positions, and with those of the types in
  them.
* `FileGrammar.read?_eq`: without the positions they are the items that the grammar reads.
-/

namespace ResetMethods

open ResetMethods.Parser

/-- What stands before an element: nothing of its list, or an element that ends on a row. `apart`
tells whether comments stand before the semicolon between the two. -/
inductive Position where
  | first
  | behind (row : Nat) (apart : Bool)
  deriving DecidableEq, Repr, Inhabited

/-- The row on which a comment belongs to the element before. -/
def Position.trailing : Position → Option Nat
  | .behind row false => some row
  | _ => none

/-- An element with its first token. -/
structure Positioned (α : Type) where
  position : Position
  token : Token
  element : α

/-- An item, with the types in it if it is a group of types. -/
structure PositionedItem extends Positioned FileItem where
  specs : List (Positioned TypeSpec)

/-- The documentation of a type declaration, and of the types in a group. -/
def PositionedItem.documented (i : PositionedItem) : List (Positioned (Option CommentGroup)) :=
  match i.element with
  | .declaration (.types decl) =>
    ⟨i.position, i.token, decl.doc⟩ :: i.specs.map fun e => ⟨e.position, e.token, e.element.doc⟩
  | _ => []

def Decl.docs : Decl → List (Option CommentGroup)
  | .types decl => decl.doc :: if decl.grouped then decl.specs.map (·.doc) else []
  | _ => []

/-- The documentation of the type declarations of a file and of the types in groups, in order. -/
def SourceFile.docs (file : SourceFile) : List (Option CommentGroup) := file.decls.flatMap Decl.docs

namespace TypeGrammar

/-- Reads the end of an element and tells what position comes behind it. -/
def endPosition : Parser Position := do
  let row ← endRow
  let apart ← commentBeforeSemicolon
  terminator
  return .behind row apart

def positionedSpecs (g : Grammar) : Nat → Position → Parser (List (Positioned TypeSpec))
  | 0, _ => return []
  | fuel + 1, position => do
    let t ← peek
    if t.kind == .symbol ")" then return []
    else
      let spec ← typeSpec g position.trailing
      let next ← endPosition
      let rest ← positionedSpecs g fuel next
      return ⟨position, t, spec⟩ :: rest

/-- A type declaration, with the types of a group. -/
def positionedDecl (g : Grammar) (position : Position) :
    Parser (TypeDecl × List (Positioned TypeSpec)) := do
  let t ← peek
  let doc := docAbove position.trailing t
  word "type"
  if ← atSymbol "(" then
    symbol "("
    let fuel := (← get).length
    let specs ← positionedSpecs g fuel .first
    symbol ")"
    return (⟨doc, true, specs.map (·.element)⟩, specs)
  else
    let spec ← typeSpec g none
    return (⟨doc, false, [spec]⟩, [])

end TypeGrammar

namespace FileGrammar

open TypeGrammar

def positionedItem (g : Grammar) (position : Position) : Parser PositionedItem := do
  let t ← peek
  match t.kind with
  | .word "type" => do
    let (decl, specs) ← positionedDecl g position
    return ⟨⟨position, t, .declaration (.types decl)⟩, specs⟩
  | _ => do
    let item ← item g position.trailing
    return ⟨⟨position, t, item⟩, []⟩

def positionedItems (g : Grammar) : Nat → Position → Parser (List PositionedItem)
  | 0, _ => failure
  | fuel + 1, position => do
    if ← atEnd then return []
    else
      let first ← positionedItem g position
      match ← perhaps endPosition with
      | some next => do
        let rest ← positionedItems g fuel next
        return first :: rest
      | none => if (← atEnd) && first.element.mayEndText then return [first] else failure

/-- The items of a text with their positions. -/
def locate? (text : List Char) : Option (List PositionedItem) :=
  let tokens := tokenize text
  (positionedItems (grammar (2 * tokens.length + 8)) (tokens.length + 1) .first tokens).map (·.1)

end FileGrammar

variable {g : Grammar}

/-! ## Without the positions -/

namespace TypeGrammar

theorem elementEnd_eq : elementEnd = Position.trailing <$> endPosition := by
  simp only [elementEnd, endPosition, map_bind, map_pure]
  refine bind_congr fun row => bind_congr fun apart => bind_congr fun _ => ?_
  cases apart <;> rfl

theorem typeSpecs_eq (fuel : Nat) (position : Position) :
    typeSpecs g fuel position.trailing =
      (List.map (·.element)) <$> positionedSpecs g fuel position := by
  induction fuel generalizing position with
  | zero => rfl
  | succ fuel ih =>
    simp only [typeSpecs, positionedSpecs, atSymbol, bind_assoc, pure_bind, map_bind, map_ite,
      map_pure, elementEnd_eq, bind_map_left, ih, List.map_cons, List.map_nil]

theorem typeDecl_eq (position : Position) :
    typeDecl g position.trailing = Prod.fst <$> positionedDecl g position := by
  have hspecs (fuel : Nat) := typeSpecs_eq (g := g) fuel .first
  simp only [Position.trailing] at hspecs
  simp only [typeDecl, positionedDecl, map_bind, map_ite, map_pure, hspecs, bind_map_left]

end TypeGrammar

namespace FileGrammar

open TypeGrammar

theorem item_eq (position : Position) :
    item g position.trailing = (fun i => i.element) <$> positionedItem g position := by
  funext ts
  cases ts with
  | nil => rfl
  | cons t rest =>
    rw [positionedItem, map_bind, peek_bind]
    split
    · next ht =>
      rw [item, peek_bind, ht]
      simp only [typeDecl_eq, bind_map_left, map_bind, map_pure]
    · simp only [map_bind, map_pure, bind_pure]

theorem items_eq (fuel : Nat) (position : Position) :
    items g fuel position.trailing =
      List.map (fun i => i.element) <$> positionedItems g fuel position := by
  induction fuel generalizing position with
  | zero => rfl
  | succ fuel ih =>
    simp only [items, positionedItems, map_bind, map_ite, map_pure, item_eq, elementEnd_eq,
      perhaps_map, bind_map_left, List.map_nil]
    refine bind_congr fun ends => ?_
    split
    · rfl
    · refine bind_congr fun first => bind_congr fun next? => ?_
      cases next? with
      | none =>
        simp only [Option.map_none, map_bind, map_ite, map_pure, List.map_cons, List.map_nil]
        rfl
      | some next =>
        simp only [Option.map_some, ih, map_bind, bind_map_left, map_pure, List.map_cons]

/-- Without their positions the items of a text are those that the grammar reads. -/
theorem read?_eq (text : List Char) :
    read? text = (locate? text).map (List.map fun i => i.element) := by
  rw [read?, locate?, show none = Position.first.trailing from rfl, items_eq, map_apply,
    Option.map_map, Option.map_map]
  rfl

end FileGrammar

end ResetMethods
