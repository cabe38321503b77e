import ResetMethods.Proofs.Execution.Semantics

/-!
# ResetMethods.Proofs.Execution.Located

What the text of a statement does where its operand lies.

* `Located`: an operand and what lies there. `Located.update` is how one operand is overwritten, and
  `Located.target` moves one pointer on.
* `Operand.place?_expr`, `Operand.place?_primaryExpr`: however it is spelled, the text of an operand
  stands for the operand.
* `Statement.Takes`: what a statement makes of the fields of the receiver, with one lemma for each
  kind of statement (`takes_assign` and so on). `Statement.TakeAll`: the same for statements in order.
* `ResetMethod.run_none`, `ResetMethod.run_some`: the guard of a method, which is its first branch.
-/

namespace ResetMethods

/-! ## Operands -/

namespace TypeTable

variable {t : TypeTable} {ty elem : Ty} {root v target : GoValue}

theorem deref_ok (hs : t.shape? ty = some (.pointer elem)) :
    t.deref ty (.pointer (some target)) = .ok (elem, target) := by
  simp [deref, hs]

/-- One pointer more is followed last. -/
theorem follow_succ {n : Nat} {ty₀ : Ty} (h : t.follow n ty₀ root = .ok (ty, v)) :
    t.follow (n + 1) ty₀ root = t.deref ty v := by
  induction n generalizing ty₀ root with
  | zero =>
    cases h
    simp only [follow]
    split <;> simp_all
  | succ n ih =>
    rw [follow] at h ⊢
    split at h
    · cases h
    · exact ih h

end TypeTable

theorem GoValue.setBehind_self {t : TypeTable} {n : Nat} {ty₀ ty : Ty} {root v : GoValue}
    (h : t.follow n ty₀ root = .ok (ty, v)) : root.setBehind n v = root := by
  induction n generalizing ty₀ root with
  | zero => cases h; rw [setBehind]
  | succ n ih =>
    rw [TypeTable.follow] at h
    split at h
    · cases h
    · rename_i elem target hd
      unfold TypeTable.deref at hd
      split at hd <;> cases hd
      rw [setBehind, ih h]

/-- To replace what a pointer points to is to replace the pointer by one to the new value. -/
theorem GoValue.setBehind_succ {t : TypeTable} {n : Nat} {ty₀ ty : Ty} {root target new : GoValue}
    (h : t.follow n ty₀ root = .ok (ty, .pointer (some target))) :
    root.setBehind (n + 1) new = root.setBehind n (.pointer (some new)) := by
  induction n generalizing ty₀ root with
  | zero => cases h; rw [setBehind, setBehind, setBehind]
  | succ n ih =>
    rw [TypeTable.follow] at h
    split at h
    · cases h
    · rename_i elem target' hd
      unfold TypeTable.deref at hd
      split at hd <;> cases hd
      rw [setBehind, ih h, setBehind]

/-- An operand `e` starts from field number `i`, which holds `root`, and leads to a value `v` of
type `ty`. -/
structure Located (t : TypeTable) (F : Frame) (values : List GoValue) (e : Operand) (i : Nat)
    (root : GoValue) (ty : Ty) (v : GoValue) : Prop where
  index : F.index? e = some i
  root_eq : values[i]? = some root
  follow : ∃ field, F.fields[i]? = some field ∧ t.follow e.derefs field.type root = .ok (ty, v)

namespace Located

variable {t : TypeTable} {F : Frame} {values : List GoValue} {e : Operand} {i : Nat}
  {root v : GoValue} {ty : Ty}

theorem read (h : Located t F values e i root ty v) : t.read F e (some values) = .ok (ty, v) := by
  obtain ⟨field, hf, hv⟩ := h.follow
  simp [TypeTable.read, h.index, h.root_eq, hf, hv]

theorem holdsNil (h : Located t F values e i root ty v) {isNil : Bool}
    (hv : v.isNil? = some isNil) : t.holdsNil F e (some values) = .ok isNil := by
  simp [TypeTable.holdsNil, h.read, hv]

/-- Overwriting an operand changes its field and nothing else. -/
theorem update (h : Located t F values e i root ty v) {f : Ty → GoValue → Except Fault GoValue}
    {new : GoValue} (hf : f ty v = .ok new) :
    t.update F e f (some values) = .ok (some (values.set i (root.setBehind e.derefs new))) := by
  obtain ⟨field, hfield, hv⟩ := h.follow
  simp [TypeTable.update, h.index, h.root_eq, hfield, hv, hf]

theorem update_error (h : Located t F values e i root ty v)
    {f : Ty → GoValue → Except Fault GoValue} {fault : Fault} (hf : f ty v = .error fault) :
    t.update F e f (some values) = .error fault := by
  obtain ⟨field, hfield, hv⟩ := h.follow
  simp [TypeTable.update, h.index, h.root_eq, hfield, hv, hf]

theorem target {elem : Ty} {x : GoValue} (h : Located t F values e i root ty (.pointer (some x)))
    (hs : t.shape? ty = some (.pointer elem)) :
    Located t F values e.target i root elem x := by
  obtain ⟨field, hf, hv⟩ := h.follow
  refine ⟨h.index, h.root_eq, field, hf, ?_⟩
  rw [Operand.target, TypeTable.follow_succ hv, TypeTable.deref_ok hs]

theorem set_self (h : Located t F values e i root ty v) :
    values.set i (root.setBehind e.derefs v) = values := by
  obtain ⟨field, _, hv⟩ := h.follow
  obtain ⟨hi, hroot⟩ := List.getElem?_eq_some_iff.1 h.root_eq
  rw [GoValue.setBehind_self hv, ← hroot]
  exact List.set_getElem_self hi

end Located

namespace Operand

/-- The text of an operand stands for the operand. -/
@[simp] theorem place?_expr (e : Operand) : e.expr.place? .outer = some e := by
  obtain ⟨receiver, field, derefs⟩ := e
  unfold expr
  induction derefs with
  | zero => rfl
  | succ n ih =>
    simp only at ih ⊢
    rw [UnaryExpr.derefs, UnaryExpr.place?]
    exact congrArg (Option.map target) ih

@[simp] theorem place?_primaryExpr (e : Operand) : e.primaryExpr.place? .outer = some e := by
  have hp := e.place?_expr
  obtain ⟨receiver, field, derefs⟩ := e
  cases derefs with
  | zero => rfl
  | succ n => exact hp

@[simp] theorem asserted?_primaryExpr (e : Operand) :
    e.primaryExpr.asserted? .outer = some (.held e) := by
  have hp := e.place?_expr
  obtain ⟨receiver, field, derefs⟩ := e
  cases derefs with
  | zero => rfl
  | succ n => exact congrArg (Option.map Asserted.held) hp

@[simp] theorem bound?_primaryExpr (e : Operand) (env : Env) : e.primaryExpr.bound? env = none := by
  unfold primaryExpr
  split <;> rfl

theorem isNil_expr (t : TypeTable) (F : Frame) (s : Store) (e : Operand) :
    t.isNil F .outer s e.expr = t.holdsNil F e s := by
  have hp := e.place?_expr
  obtain ⟨receiver, field, derefs⟩ := e
  cases derefs with
  | zero => rfl
  | succ n =>
    rw [expr, UnaryExpr.derefs] at hp ⊢
    rw [TypeTable.isNil, hp]
    simp

end Operand

/-! ## Values -/

/-- The zero literal of a type is its zero value. -/
theorem TypeTable.literalValue_zero {t : TypeTable} {ty : Ty} {kind : BasicKind}
    (hs : t.shape? ty = some (.basic kind)) :
    t.literalValue ty kind.zeroLiteral = .ok (.scalar kind.zeroLiteral) := by
  unfold literalValue
  split
  · rename_i hnil
    simp [nilValue, hs, hnil]
  · simp [hs]

namespace Runtime

variable {t : TypeTable} {R : Runtime t} {F : Frame} {s : Store} {e : Operand} {ty : Ty}

theorem valueFor_null : R.valueFor F .outer s ty (Value.null.expr e) = t.nilValue ty := rfl

theorem valueFor_composite {z : GoValue} (hz : IsZero t R.toExternals ty z) :
    R.valueFor F .outer s ty ((Value.composite ty).expr e) = .ok z :=
  congrArg Except.ok (R.zero_eq hz)

/-- A slice of length zero is empty, and `nil` only of a slice that is. -/
theorem valueFor_emptied {values : List GoValue} {i : Nat} {root : GoValue} {elem : Ty}
    {elems : Option (List GoValue)} (hl : Located t F values e i root ty (.slice elems))
    (hs : t.shape? ty = some (.slice elem)) :
    R.valueFor F .outer (some values) ty (Value.emptied.expr e) =
      .ok (.slice (elems.map fun _ => [])) := by
  simp [Value.expr, valueFor, hl.read, hs]

end Runtime

/-! ## Statements -/

/-- Run on the fields `before`, the statement leaves the fields `after`. -/
def Statement.Takes {t : TypeTable} (R : Runtime t) (F : Frame) (statement : Statement)
    (before after : List GoValue) : Prop :=
  statement.code.exec R F .outer (some before) = .ok (.next (some after))

namespace Statement

variable {t : TypeTable} {R : Runtime t} {F : Frame} {values after : List GoValue} {e : Operand}
  {i : Nat} {root v new : GoValue} {ty : Ty} {body : Statement}

theorem takes_assign (hl : Located t F values e i root ty v) {value : Value}
    (hv : R.valueFor F .outer (some values) ty (value.expr e) = .ok new) :
    (assign e value).Takes R F values (values.set i (root.setBehind e.derefs new)) := by
  rw [Takes, code, Code.exec, e.place?_expr]
  simp only
  rw [hl.update hv]
  rfl

theorem exec_assign_error (hl : Located t F values e i root ty v) {value : Value} {fault : Fault}
    (hv : R.valueFor F .outer (some values) ty (value.expr e) = .error fault) :
    (assign e value).code.exec R F .outer (some values) = .error fault := by
  rw [code, Code.exec, e.place?_expr]
  simp only
  rw [hl.update_error hv]
  rfl

theorem takes_clear (hl : Located t F values e i root ty v) (hv : t.cleared ty v = .ok new) :
    (clear e).Takes R F values (values.set i (root.setBehind e.derefs new)) := by
  rw [Takes, code, Code.exec, e.place?_expr]
  simp only
  rw [hl.update hv]
  rfl

theorem takes_call (hl : Located t F values e i root ty v) (hv : R.called ty v = .ok new) :
    (call e).Takes R F values (values.set i (root.setBehind e.derefs new)) := by
  rw [Takes, code, Code.exec, e.bound?_primaryExpr, e.place?_primaryExpr]
  simp only
  rw [hl.update hv]
  rfl

theorem takes_guarded_of_nil (hl : Located t F values e i root ty v) (hv : v.isNil? = some true) :
    (guarded e body).Takes R F values (values.set i (root.setBehind e.derefs v)) := by
  rw [Takes, code, Code.exec, e.isNil_expr, hl.holdsNil hv, hl.set_self]

theorem takes_guarded (hl : Located t F values e i root ty v) (hv : v.isNil? = some false) :
    (guarded e body).Takes R F values after ↔ body.Takes R F values after := by
  rw [Takes, code, Code.exec, e.isNil_expr, hl.holdsNil hv]
  rfl

/-- What an interface holds is reset if its type is found to have the method. -/
theorem takes_callIfAble {dynamic : Ty} {held : GoValue}
    (hl : Located t F values e i root ty (.interface (some (dynamic, held))))
    (hi : t.isInterfaceType ty = true) :
    (callIfAble e).Takes R F values (values.set i (root.setBehind e.derefs
      (.interface (some (dynamic, if R.able dynamic then R.reset dynamic held else held))))) := by
  rw [Takes, code, Code.exec, e.asserted?_primaryExpr]
  simp only [Runtime.finds, hl.read, hi, if_true, GoValue.dynamicType?, Option.map_some,
    Option.any_some]
  cases ha : R.able dynamic with
  | true =>
    have hcall := hl.update (f := R.calledThrough) rfl
    simp only [Code.exec, PrimaryExpr.bound?, if_true, Runtime.callAsserted, hcall]
    rfl
  | false =>
    simp only [Code.exec, Bool.false_eq_true, if_false, hl.set_self]

end Statement

/-- Run on the fields `before`, the statements leave the fields `after`. -/
def Statement.TakeAll {t : TypeTable} (R : Runtime t) (F : Frame) (body : List Statement)
    (before after : List GoValue) : Prop :=
  (Code.all (body.map (·.code))).exec R F .outer (some before) = .ok (.next (some after))

theorem Statement.TakeAll.cons {t : TypeTable} {R : Runtime t} {F : Frame} {st : Statement}
    {rest : List Statement} {before middle after : List GoValue} (h : st.Takes R F before middle)
    (hrest : TakeAll R F rest middle after) : TakeAll R F (st :: rest) before after := by
  rw [TakeAll, List.map_cons, Code.all, Code.exec, h]
  exact hrest

/-! ## Methods -/

namespace ResetMethod

variable {t : TypeTable} (R : Runtime t) (fields : List (Field Ty)) (m : ResetMethod)

/-- The guard of a method returns for a `nil` receiver. -/
theorem run_none : m.run R fields none = .ok none := by
  simp [run, code, Code.exec, TypeTable.isNil, Env.hides, Except.map, Flow.store]

/-- For any other receiver, the guard is passed and the statements are run. -/
theorem run_some (values : List GoValue) :
    m.run R fields (some values) =
      ((Code.all (m.body.map (·.code))).exec R ⟨m.receiver, fields⟩ .outer (some values)).map
        Flow.store := by
  cases hb : m.body.isEmpty with
  | true => simp [run, code, Code.exec, TypeTable.isNil, Env.hides, hb]
  | false => simp [run, code, Code.exec, TypeTable.isNil, Env.hides, hb]

variable {R fields m}

theorem run_of_takeAll {before after : List GoValue}
    (h : Statement.TakeAll R ⟨m.receiver, fields⟩ m.body before after) :
    m.run R fields (some before) = .ok (some after) := by
  rw [run_some, h]
  rfl

/-- A fault in the first statement is a fault of the method. -/
theorem run_error {receiver typeName : String} {st : Statement} {rest : List Statement}
    {values : List GoValue} {fault : Fault}
    (h : st.code.exec R ⟨receiver, fields⟩ .outer (some values) = .error fault) :
    run R fields ⟨receiver, typeName, st :: rest⟩ (some values) = .error fault := by
  rw [run_some, List.map_cons, Code.all, Code.exec, h]
  rfl

end ResetMethod
end ResetMethods
