import ResetMethods.Types.Table

/-!
# ResetMethods.Reset.MethodSet

Which types have a `Reset()` method.

* `Surroundings` : the declarations of a load with the types that are about to get a method.
* `Surroundings.hasReset` : a type has `Reset()` when it is about to get one, when it declares one,
  or when exactly one of its embedded fields provides one and nothing nearer bears the name.
* `Surroundings.asksReset` : an interface asks for `Reset()` itself or through what it embeds.

Embedding is followed through `depthLimit` levels; beyond them nothing is found.
-/

namespace ResetMethods

/-- How deep pointers and embedding are followed. -/
def depthLimit : Nat := 16

/-- The declarations of a load, and the types that are about to receive a generated method. -/
structure Surroundings where
  table : TypeTable
  pending : List TypeKey
  deriving Inhabited

namespace Surroundings

/-- Whether an interface asks for `Reset()`, looking through `fuel` levels of embedding. -/
def asksResetWithin (s : Surroundings) : Nat → List (MethodSpec Ty) → List Ty → Bool
  | 0, _, _ => false
  | fuel + 1, methods, embeds =>
    methods.any (·.isReset) ||
      embeds.any fun embed =>
        match s.table.underlying embed with
        | some (.interface methods' embeds') => s.asksResetWithin fuel methods' embeds'
        | _ => false

def asksReset (s : Surroundings) (methods : List (MethodSpec Ty)) (embeds : List Ty) : Bool :=
  s.asksResetWithin (depthLimit + 1) methods embeds

/-- The type whose methods an embedded field promotes: aliases followed, one pointer removed. -/
def promotedFrom (s : Surroundings) (ty : Ty) : Option Ty :=
  match s.table.unalias ty with
  | some (.pointer elem) => some elem
  | other => other

/-- Whether a type has `Reset()`, looking through `fuel` levels of embedding. -/
def hasResetWithin (s : Surroundings) : Nat → Ty → Bool
  | 0, _ => false
  | fuel + 1, ty =>
    match s.table.declaration ty with
    | none => false
    | some d =>
      if s.pending.contains d.key then true
      else if d.methods.any (·.isReset) then true
      else if d.methods.any (·.name == "Reset") then false
      else
        match s.table.underlying d.rhs with
        | some (.struct fields) =>
          if fields.any (·.name == "Reset") then false
          else
            (fields.filter fun field =>
              field.embedded &&
                match s.promotedFrom field.type with
                | none => false
                | some inner =>
                  match s.table.underlying inner with
                  | some (.interface methods embeds) => s.asksResetWithin fuel methods embeds
                  | _ => s.hasResetWithin fuel inner).length == 1
        | _ => false

/-- Whether `Reset()` is in the method set of a type or of the pointer to it. -/
def hasReset (s : Surroundings) (ty : Ty) : Bool := s.hasResetWithin (depthLimit + 1) ty

end Surroundings
end ResetMethods
