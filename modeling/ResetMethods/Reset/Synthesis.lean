import ResetMethods.Reset.MethodSet
import ResetMethods.Reset.Statement
import ResetMethods.Text.Fresh

/-!
# ResetMethods.Reset.Synthesis

The `Reset()` method of a struct type. Each field is reset by the shape of its type:

* pointer: if not `nil`, by the target's `Reset()`, else by resetting the target in place;
* slice: cut to length zero; map: emptied; channel, function: `nil`; basic: its zero literal;
* struct: by its `Reset()`, else set to its zero value; array: set to its zero value;
* interface: if not `nil`, by `Reset()`, found by assertion unless the interface asks for it;
* a type declared outside the load: by whichever `Reset()` is found at run time, else zeroed.
-/

namespace ResetMethods
namespace Surroundings

def resetUnresolved (s : Surroundings) (e : Operand) (ty : Ty) : Statement :=
  match s.table.unalias ty with
  | some (.named n) => .probe e (.named n)
  | _ => .assign e .null

def isInterface (s : Surroundings) (ty : Ty) : Bool :=
  match s.table.underlying ty with
  | some (.interface _ _) => true
  | _ => false

/-- Whether the type is a declared one, once aliases are followed. -/
def isDefined (s : Surroundings) (ty : Ty) : Bool :=
  match s.table.unalias ty with
  | some (.named _) => true
  | _ => false

/-- How an operand of a type is reset, with `fuel` pointer levels to go. A pointer whose type is a
declared one has no methods of its own, so its target is called instead. -/
def resetWithin (s : Surroundings) : Nat → Operand → Ty → Statement
  | fuel, e, ty =>
    match s.table.underlying ty with
    | none => s.resetUnresolved e ty
    | some shape =>
      match fuel with
      | 0 => .assign e (.blank ty)
      | fuel + 1 =>
        match shape with
        | .pointer elem =>
          .guarded e <|
            if !s.isInterface elem && s.hasReset elem then
              .call (if s.isDefined ty then e.target else e)
            else s.resetWithin fuel e.target elem
        | .slice _ => .assign e .emptied
        | .map _ _ => .clear e
        | .struct _ => if s.hasReset ty then .call e else .assign e (.composite ty)
        | .interface methods embeds =>
          .guarded e (if s.asksReset methods embeds then .call e else .callIfAble e)
        | .array _ _ => .assign e (.composite ty)
        | .basic kind => .assign e (.zero kind)
        | .channel _ _ | .function _ => .assign e .null
        | .typeParam _ | .named _ => .assign e (.blank ty)

def reset (s : Surroundings) (e : Operand) (ty : Ty) : Statement :=
  s.resetWithin (depthLimit + 1) e ty

end Surroundings

/-- Whether a method of the package `host` resets the field: not a blank one, and one of another
package only if it is exported. -/
def Field.isIncluded (host : String) (f : Field Ty) : Bool :=
  f.name != "_" && f.name != "" && (f.isExported || f.package == host)

/-- The method of a declared struct type, or `none` for any other name. -/
def ResetMethod.of? (s : Surroundings) (receiver : String) (n : Named Ty) : Option ResetMethod :=
  match s.table.lookup n with
  | none => none
  | some d =>
    if d.isAlias then none
    else
      match s.table.underlying d.rhs with
      | some (.struct fields) =>
        some
          { receiver
            typeName := d.name
            body := (fields.filter (Field.isIncluded d.key.package)).map fun f =>
              s.reset (.ofField receiver f.name) f.type }
      | _ => none

def preferredReceiver : String := "obj"

/-- The receiver name of a package whose identifiers are `taken`. -/
def receiverName (taken : List String) : String := Text.fresh preferredReceiver taken

end ResetMethods
