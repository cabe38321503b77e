import ResetMethods.Proofs.Execution.Code
import ResetMethods.Proofs.Execution.Value
import ResetMethods.Reset.Synthesis

/-!
# ResetMethods.Proofs.Execution.Semantics

What the text of a `Reset()` method does to what the receiver points to.

* `Runtime`: the program around a method. What a call of `Reset()` does is an arbitrary idempotent
  function for each type.
* `TypeTable.read`, `TypeTable.update`: an operand is found by its field and then pointer by pointer.
  A `nil` pointer on the way is a fault (`Fault.nilDereference`), and so is a `nil` receiver.
* `Code.exec`: the meaning of code. Expressions stand for operands (`UnaryExpr.place?`), for values
  (`Runtime.valueFor`) or for conditions (`TypeTable.isNil`, `Runtime.finds`).
* `ResetMethod.run`: the meaning of a method is that of its text.

Expressions that no method writes in a place are taken for ill-typed there.
-/

namespace ResetMethods

/-- Why a statement cannot be carried out. -/
inductive Fault where
  /-- A `nil` pointer or interface is followed. -/
  | nilDereference
  /-- The statement does not fit the type of its operand, so no compiler accepts it. -/
  | illTyped
  deriving DecidableEq, Repr

/-- The program around a method: its zero values, what calls of `Reset()` do to a value of a type,
and which dynamic types are found to have that method. -/
structure Runtime (t : TypeTable) extends Externals where
  zero : Ty → GoValue
  zero_eq : ∀ {ty : Ty} {z : GoValue}, IsZero t toExternals ty z → zero ty = z
  reset : Ty → GoValue → GoValue
  reset_reset : ∀ (ty : Ty) (v : GoValue), reset ty (reset ty v) = reset ty v
  able : Ty → Bool

open Classical in
/-- The program in which calls of `Reset()` do what `reset` does. -/
noncomputable def Runtime.ofReset {t : TypeTable} (x : Externals) (reset : Ty → GoValue → GoValue)
    (h : ∀ (ty : Ty) (v : GoValue), reset ty (reset ty v) = reset ty v) (able : Ty → Bool) :
    Runtime t where
  toExternals := x
  zero ty := if hz : ∃ z, IsZero t x ty z then hz.choose else default
  zero_eq {ty z} hz := by
    have he : ∃ z, IsZero t x ty z := ⟨z, hz⟩
    rw [dif_pos he]
    exact he.choose_spec.unique hz
  reset := reset
  reset_reset := h
  able := able

/-- The receiver of a method: its name and the fields of the type it points to. -/
structure Frame where
  receiver : String
  fields : List (Field Ty)

/-- The position of the field that an operand starts from. -/
def Frame.index? (F : Frame) (e : Operand) : Option Nat :=
  if e.receiver = F.receiver then F.fields.findIdx? (·.name == e.field) else none

namespace TypeTable

variable (t : TypeTable)

def isInterfaceType (ty : Ty) : Bool :=
  match t.shape? ty with
  | some (.interface _ _) => true
  | _ => false

def deref (ty : Ty) (v : GoValue) : Except Fault (Ty × GoValue) :=
  match t.shape? ty, v with
  | some (.pointer elem), .pointer (some target) => .ok (elem, target)
  | some (.pointer _), .pointer none => .error .nilDereference
  | _, _ => .error .illTyped

/-- What lies `n` pointers behind a value. -/
def follow : Nat → Ty → GoValue → Except Fault (Ty × GoValue)
  | 0, ty, v => .ok (ty, v)
  | n + 1, ty, v =>
    match t.deref ty v with
    | .error fault => .error fault
    | .ok (elem, target) => follow n elem target

/-- The predeclared `nil` as a value of a type. -/
def nilValue (ty : Ty) : Except Fault GoValue :=
  match t.shape? ty with
  | some (.pointer _) => .ok (.pointer none)
  | some (.slice _) => .ok (.slice none)
  | some (.map _ _) => .ok (.map none)
  | some (.interface _ _) => .ok (.interface none)
  | some (.channel _ _) | some (.function _) => .ok (.reference none)
  | some (.basic kind) =>
    if kind.zeroLiteral = "nil" then .ok (.scalar "nil") else .error .illTyped
  | _ => .error .illTyped

/-- What a literal or `nil` is worth as a value of a type. -/
def literalValue (ty : Ty) (text : String) : Except Fault GoValue :=
  if text = "nil" then t.nilValue ty
  else
    match t.shape? ty with
    | some (.basic kind) =>
      if kind.zeroLiteral = text then .ok (.scalar text) else .error .illTyped
    | _ => .error .illTyped

def cleared (ty : Ty) (v : GoValue) : Except Fault GoValue :=
  match t.shape? ty, v with
  | some (.map _ _), .map entries => .ok (.map (entries.map fun _ => []))
  | _, _ => .error .illTyped

end TypeTable

/-- A value with `new` in place of what lies `n` pointers behind it. -/
def GoValue.setBehind : GoValue → Nat → GoValue → GoValue
  | _, 0, new => new
  | .pointer (some target), n + 1, new => .pointer (some (target.setBehind n new))
  | root, _ + 1, _ => root

/-- What the receiver of a method points to: nothing, or the fields of a struct. -/
abbrev Store := Option (List GoValue)

namespace TypeTable

variable (t : TypeTable)

def read (F : Frame) (e : Operand) : Store → Except Fault (Ty × GoValue)
  | none => .error .nilDereference
  | some values =>
    match F.index? e with
    | none => .error .illTyped
    | some i =>
      match F.fields[i]?, values[i]? with
      | some field, some root => t.follow e.derefs field.type root
      | _, _ => .error .illTyped

/-- Overwrites what lies at an operand by what `f` makes of it. -/
def update (F : Frame) (e : Operand) (f : Ty → GoValue → Except Fault GoValue) :
    Store → Except Fault Store
  | none => .error .nilDereference
  | some values =>
    match F.index? e with
    | none => .error .illTyped
    | some i =>
      match F.fields[i]?, values[i]? with
      | some field, some root =>
        match t.follow e.derefs field.type root with
        | .error fault => .error fault
        | .ok (ty, v) =>
          match f ty v with
          | .error fault => .error fault
          | .ok new => .ok (some (values.set i (root.setBehind e.derefs new)))
      | _, _ => .error .illTyped

end TypeTable

/-! ## Expressions -/

/-- What an assertion asserts `Reset()` of. -/
inductive Asserted where
  /-- The pointer to an operand. -/
  | pointer (e : Operand)
  /-- The value of an operand. -/
  | value (e : Operand)
  /-- The value that an operand holds, which is an interface. -/
  | held (e : Operand)

/-- The variables that code sees. In the branches of an assertion, `r` and `ok` are new ones, and `r`
is `nil` where the assertion failed. -/
inductive Env where
  | outer
  | inner (r : Option Asserted)

def Env.hides : Env → String → Bool
  | .outer, _ => false
  | .inner _, x => x == "r" || x == "ok"

mutual

/-- The operand that an expression stands for. -/
def UnaryExpr.place? (env : Env) : UnaryExpr → Option Operand
  | .primary p => p.place? env
  | .deref e => (e.place? env).map .target
  | .address _ => none

def PrimaryExpr.place? (env : Env) : PrimaryExpr → Option Operand
  | .select (.name x) field => if env.hides x then none else some (.ofField x field)
  | .paren e => e.place? env
  | _ => none

end

def PrimaryExpr.asserted? (env : Env) : PrimaryExpr → Option Asserted
  | .any (.address e) => (e.place? env).map .pointer
  | .any e => (e.place? env).map .value
  | p => (p.place? env).map .held

/-- What the variable of an assertion is bound to, for an expression that is this variable. -/
def PrimaryExpr.bound? (env : Env) : PrimaryExpr → Option Asserted
  | .name x =>
    match env with
    | .inner r => if x = "r" then r else none
    | .outer => none
  | _ => none

/-- Whether what lies at an operand is `nil`. -/
def TypeTable.holdsNil (t : TypeTable) (F : Frame) (e : Operand) (s : Store) : Except Fault Bool :=
  match t.read F e s with
  | .error fault => .error fault
  | .ok (_, v) =>
    match v.isNil? with
    | some isNil => .ok isNil
    | none => .error .illTyped

/-- Whether an expression is `nil`: the receiver or an operand. -/
def TypeTable.isNil (t : TypeTable) (F : Frame) (env : Env) (s : Store) :
    UnaryExpr → Except Fault Bool
  | .primary (.name x) =>
    if x = F.receiver ∧ env.hides x = false then .ok s.isNone else .error .illTyped
  | e =>
    match e.place? env with
    | none => .error .illTyped
    | some e => t.holdsNil F e s

/-- The type of what an interface holds after a value of a type is converted to it. -/
def GoValue.dynamicType? (ty : Ty) : GoValue → Option Ty
  | .interface held => held.map (·.1)
  | _ => some ty

namespace Runtime

variable {t : TypeTable} (R : Runtime t) (F : Frame)

/-- What an expression is worth where it is assigned to a variable of a type. -/
def valueFor (env : Env) (s : Store) (ty : Ty) : UnaryExpr → Except Fault GoValue
  | .primary (.literal text) => t.literalValue ty text
  | .primary (.composite type) => .ok (R.zero type)
  | .deref (.primary (.new type)) => .ok (R.zero type)
  | .primary (.cut p) =>
    match p.place? env with
    | none => .error .illTyped
    | some e =>
      match t.read F e s with
      | .error fault => .error fault
      | .ok (own, v) =>
        match t.shape? own, v with
        | some (.slice _), .slice elems => .ok (.slice (elems.map fun _ => []))
        | _, _ => .error .illTyped
  | _ => .error .illTyped

/-- What a call of `Reset()` leaves. A selector follows a pointer by itself, though not one to an
interface, and a call on an interface reaches the value it holds. -/
def called (ty : Ty) (v : GoValue) : Except Fault GoValue :=
  match t.bare? ty with
  | some (.pointer elem) =>
    if t.isInterfaceType elem then .error .illTyped
    else
      match v with
      | .pointer (some target) => .ok (.pointer (some (R.reset elem target)))
      | .pointer none => .error .nilDereference
      | _ => .error .illTyped
  | _ =>
    if t.isInterfaceType ty then
      match v with
      | .interface (some (dynamic, held)) =>
        .ok (.interface (some (dynamic, R.reset dynamic held)))
      | .interface none => .error .nilDereference
      | _ => .error .illTyped
    else .ok (R.reset ty v)

/-- What a call of `Reset()` leaves that reaches a value through an interface. -/
def calledThrough (ty : Ty) : GoValue → Except Fault GoValue
  | .interface (some (dynamic, held)) => .ok (.interface (some (dynamic, R.reset dynamic held)))
  | .interface none => .error .nilDereference
  | v => R.called ty v

/-- Whether an assertion finds `Reset()`. Only an operand of an interface type can be asserted on
without a conversion. -/
def finds (s : Store) : Asserted → Except Fault Bool
  | .pointer e => (t.read F e s).map fun (ty, _) => R.able (.pointer ty)
  | .value e => (t.read F e s).map fun (ty, v) => (v.dynamicType? ty).any R.able
  | .held e =>
    match t.read F e s with
    | .error fault => .error fault
    | .ok (ty, v) =>
      if t.isInterfaceType ty then .ok ((v.dynamicType? ty).any R.able) else .error .illTyped

/-- Calls `Reset()` on what it was found on. -/
def callAsserted (s : Store) : Asserted → Except Fault Store
  | .pointer e => t.update F e (fun ty v => .ok (R.reset ty v)) s
  | .value e | .held e => t.update F e R.calledThrough s

end Runtime

/-! ## Code -/

/-- Where code leaves off: at its end, or at a return before. -/
inductive Flow where
  | next (s : Store)
  | returned (s : Store)

/-- What the receiver points to then. -/
def Flow.store : Flow → Store
  | .next s | .returned s => s

/-- What code makes of what the receiver points to. -/
@[simp] def Code.exec {t : TypeTable} (R : Runtime t) (F : Frame) (env : Env) :
    Code → Store → Except Fault Flow
  | .skip, s | .blank, s => .ok (.next s)
  | .leave, s => .ok (.returned s)
  | .seq first rest, s =>
    match first.exec R F env s with
    | .ok (.next s) => rest.exec R F env s
    | early => early
  | .assign target value, s =>
    match target.place? env with
    | some e => (t.update F e (fun ty _ => R.valueFor F env s ty value) s).map .next
    | none => .error .illTyped
  | .clear e, s =>
    match e.place? env with
    | some e => (t.update F e t.cleared s).map .next
    | none => .error .illTyped
  | .call p, s =>
    match p.bound? env, p.place? env with
    | some r, _ => (R.callAsserted F s r).map .next
    | none, some e => (t.update F e R.called s).map .next
    | none, none => .error .illTyped
  | .ifNil e body, s =>
    match t.isNil F env s e with
    | .ok true => body.exec R F env s
    | .ok false => .ok (.next s)
    | .error fault => .error fault
  | .ifNotNil e body, s =>
    match t.isNil F env s e with
    | .ok true => .ok (.next s)
    | .ok false => body.exec R F env s
    | .error fault => .error fault
  | .ifAble subject body otherwise, s =>
    match subject.asserted? env with
    | none => .error .illTyped
    | some r =>
      match R.finds F s r with
      | .ok true => body.exec R F (.inner (some r)) s
      | .ok false => otherwise.exec R F (.inner none) s
      | .error fault => .error fault

/-- What the text of a method makes of what its receiver points to, which has these fields. -/
def ResetMethod.run {t : TypeTable} (R : Runtime t) (fields : List (Field Ty)) (m : ResetMethod)
    (s : Store) : Except Fault Store :=
  (m.code.exec R ⟨m.receiver, fields⟩ .outer s).map Flow.store

end ResetMethods
