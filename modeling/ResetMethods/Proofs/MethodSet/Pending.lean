import ResetMethods.Imports.Viewpoint
import ResetMethods.Reset.Synthesis

/-!
# ResetMethods.Proofs.MethodSet.Pending

Types that are about to receive a method, against types that declare it.

* `Surroundings.settled`: every pending type declares `Reset()`, and nothing is pending any more.
* `TypeTable.settle_foldl_declare`: a table built by insertions is settled declaration by declaration.
* `settled_eq`: the order of the pending types does not count.
* `hasReset_settled`, `of?_settled`: no answer and no method differs between the two.
* `synthesize_settled`: neither does any text or alias, whatever is synthesized in whatever order.

Walks read right-hand sides only, and settling changes methods only, so they agree by
`lookup_settle`. What is left is the order of the tests in `hasResetWithin`.
-/

namespace ResetMethods

/-! ## Settled tables -/

/-- `Reset()` with a pointer receiver. -/
def Method.pendingReset : Method := ⟨"Reset", true, ⟨[], [], false⟩⟩

/-- A declaration with one method `Reset()` more if it is pending. -/
def Declaration.settle (pending : List TypeKey) (d : Declaration) : Declaration :=
  if pending.contains d.key then { d with methods := d.methods ++ [.pendingReset] } else d

namespace Declaration

variable (pending : List TypeKey) (d : Declaration)

@[simp] theorem settle_key : (d.settle pending).key = d.key := by
  unfold settle; split <;> rfl

@[simp] theorem settle_name : (d.settle pending).name = d.name := by
  unfold settle; split <;> rfl

@[simp] theorem settle_isAlias : (d.settle pending).isAlias = d.isAlias := by
  unfold settle; split <;> rfl

@[simp] theorem settle_rhs : (d.settle pending).rhs = d.rhs := by
  unfold settle; split <;> rfl

end Declaration

namespace TypeTable

/-- The table with every declaration settled. -/
def settle (pending : List TypeKey) (t : TypeTable) : TypeTable :=
  ⟨t.entries.map fun e => (e.1, e.2.settle pending), by
    rw [List.pairwise_map]
    exact t.sorted⟩

theorem insertEntry_settle (pending : List TypeKey) (k : TypeKey) (d : Declaration)
    (l : List (TypeKey × Declaration)) :
    (Dict.insertEntry k d l).map (fun e => (e.1, e.2.settle pending)) =
      Dict.insertEntry k (d.settle pending) (l.map fun e => (e.1, e.2.settle pending)) := by
  induction l with
  | nil => rfl
  | cons head rest ih =>
    simp only [Dict.insertEntry, List.map_cons]
    split
    · rfl
    · rfl
    · rw [List.map_cons, ih]

/-- To settle a table after an insertion is to insert the settled declaration. -/
theorem settle_declare (pending : List TypeKey) (t : TypeTable) (d : Declaration) :
    (t.declare d).settle pending = (t.settle pending).declare (d.settle pending) := by
  simp only [declare, Dict.insert, settle, Dict.mk.injEq, Declaration.settle_key]
  exact insertEntry_settle pending d.key d t.entries

theorem settle_foldl_declare (pending : List TypeKey) (t : TypeTable) (ds : List Declaration) :
    (ds.foldl declare t).settle pending =
      (ds.map (·.settle pending)).foldl declare (t.settle pending) := by
  induction ds generalizing t with
  | nil => rfl
  | cons d ds ih => rw [List.foldl_cons, ih, settle_declare, List.map_cons, List.foldl_cons]

variable (pending : List TypeKey) (t : TypeTable)

theorem lookup_settle (n : Named Ty) :
    (t.settle pending).lookup n = (t.lookup n).map (·.settle pending) := by
  have h (l : List (TypeKey × Declaration)) :
      (l.map fun e => (e.1, e.2.settle pending)).lookup n.key =
        (l.lookup n.key).map (·.settle pending) := by
    induction l with
    | nil => rfl
    | cons e rest ih =>
      obtain ⟨k, d⟩ := e
      simp only [List.map_cons, List.lookup_cons]
      split
      · rfl
      · exact ih
  exact h t.entries

theorem hasPackage_settle (path : String) :
    (t.settle pending).hasPackage path = t.hasPackage path := by
  simp [hasPackage, Dict.keys, settle, Function.comp_def]

theorem unaliasWithin_settle (fuel : Nat) (ty : Ty) :
    (t.settle pending).unaliasWithin fuel ty = t.unaliasWithin fuel ty := by
  induction fuel generalizing ty with
  | zero => rfl
  | succ fuel ih =>
    cases ty with
    | named n =>
      simp only [unaliasWithin, lookup_settle]
      cases t.lookup n with
      | none => rfl
      | some d => simp [ih]
    | _ => rfl

theorem underlyingWithin_settle (fuel : Nat) (ty : Ty) :
    (t.settle pending).underlyingWithin fuel ty = t.underlyingWithin fuel ty := by
  induction fuel generalizing ty with
  | zero => rfl
  | succ fuel ih =>
    cases ty with
    | named n =>
      simp only [underlyingWithin, lookup_settle]
      cases t.lookup n with
      | none => rfl
      | some d => simp [ih]
    | _ => rfl

@[simp] theorem unalias_settle (ty : Ty) : (t.settle pending).unalias ty = t.unalias ty :=
  unaliasWithin_settle pending t chainLimit ty

@[simp] theorem underlying_settle (ty : Ty) :
    (t.settle pending).underlying ty = t.underlying ty :=
  underlyingWithin_settle pending t chainLimit ty

theorem declaration_settle (ty : Ty) :
    (t.settle pending).declaration ty = (t.declaration ty).map (·.settle pending) := by
  simp only [declaration, unalias_settle]
  split
  · exact lookup_settle pending t _
  · rfl

end TypeTable

/-! ## Method sets -/

namespace Surroundings

/-- The pending methods have been declared. -/
def settled (s : Surroundings) : Surroundings := ⟨s.table.settle s.pending, []⟩

/-- Only which types are pending counts, and not their order. -/
theorem settled_eq {s s' : Surroundings} (htable : s.table = s'.table)
    (hpending : ∀ k, k ∈ s.pending ↔ k ∈ s'.pending) : s.settled = s'.settled := by
  have hsettle : Declaration.settle s.pending = Declaration.settle s'.pending := by
    funext d
    simp only [Declaration.settle, List.contains_iff_mem, hpending]
  simp only [settled, TypeTable.settle, htable, hsettle]

variable (s : Surroundings)

@[simp] theorem settled_table : s.settled.table = s.table.settle s.pending := rfl

@[simp] theorem settled_pending : s.settled.pending = [] := rfl

theorem asksResetWithin_settled (fuel : Nat) (methods : List (MethodSpec Ty)) (embeds : List Ty) :
    s.settled.asksResetWithin fuel methods embeds = s.asksResetWithin fuel methods embeds := by
  induction fuel generalizing methods embeds with
  | zero => rfl
  | succ fuel ih => simp only [asksResetWithin, settled_table, TypeTable.underlying_settle, ih]

theorem asksReset_settled (methods : List (MethodSpec Ty)) (embeds : List Ty) :
    s.settled.asksReset methods embeds = s.asksReset methods embeds :=
  asksResetWithin_settled s (depthLimit + 1) methods embeds

theorem promotedFrom_settled (ty : Ty) : s.settled.promotedFrom ty = s.promotedFrom ty := by
  simp only [promotedFrom, settled_table, TypeTable.unalias_settle]

theorem hasResetWithin_settled (fuel : Nat) (ty : Ty) :
    s.settled.hasResetWithin fuel ty = s.hasResetWithin fuel ty := by
  induction fuel generalizing ty with
  | zero => rfl
  | succ fuel ih =>
    simp only [hasResetWithin, settled_table, settled_pending, TypeTable.declaration_settle,
      TypeTable.underlying_settle, asksResetWithin_settled, promotedFrom_settled, ih]
    cases s.table.declaration ty with
    | none => rfl
    | some d =>
      by_cases hp : d.key ∈ s.pending
      · have hr : (d.settle s.pending).methods.any (·.isReset) = true := by
          simp [Declaration.settle, hp, Method.isReset, Method.pendingReset, Signature.isNullary]
        simp [hp, hr]
      · have hd : d.settle s.pending = d := by
          simp [Declaration.settle, hp]
        simp [hp, hd]

theorem hasReset_settled (ty : Ty) : s.settled.hasReset ty = s.hasReset ty :=
  hasResetWithin_settled s (depthLimit + 1) ty

/-! ## Methods -/

theorem isInterface_settled (ty : Ty) : s.settled.isInterface ty = s.isInterface ty := by
  simp only [isInterface, settled_table, TypeTable.underlying_settle]

theorem isDefined_settled (ty : Ty) : s.settled.isDefined ty = s.isDefined ty := by
  simp only [isDefined, settled_table, TypeTable.unalias_settle]

theorem resetUnresolved_settled (e : Operand) (ty : Ty) :
    s.settled.resetUnresolved e ty = s.resetUnresolved e ty := by
  simp only [resetUnresolved, settled_table, TypeTable.unalias_settle]

theorem resetWithin_settled (fuel : Nat) (e : Operand) (ty : Ty) :
    s.settled.resetWithin fuel e ty = s.resetWithin fuel e ty := by
  induction fuel generalizing e ty with
  | zero =>
    unfold resetWithin
    simp only [settled_table, TypeTable.underlying_settle, resetUnresolved_settled]
  | succ fuel ih =>
    unfold resetWithin
    simp only [settled_table, TypeTable.underlying_settle, resetUnresolved_settled,
      isInterface_settled, isDefined_settled, hasReset_settled, asksReset_settled, ih]

end Surroundings

theorem ResetMethod.of?_settled (s : Surroundings) (receiver : String) (n : Named Ty) :
    ResetMethod.of? s.settled receiver n = ResetMethod.of? s receiver n := by
  unfold of?
  rw [Surroundings.settled_table, TypeTable.lookup_settle]
  cases s.table.lookup n with
  | none => rfl
  | some d =>
    simp [Surroundings.reset, Surroundings.resetWithin_settled]

/-! ## Texts and aliases -/

/-- The texts of the methods for some targets as seen from the package `host`, and the aliases that
are bound after each of them. -/
def synthesize (s : Surroundings) (host receiver : String) :
    AliasTable → List (Named Ty) → List (Option String × AliasTable)
  | _, [] => []
  | aliases, target :: rest =>
    let view : Viewpoint := ⟨s.table, host⟩
    let method? := ResetMethod.of? s receiver target
    let later := view.bindAll aliases ((method?.map (·.packages)).getD [])
    (method?.map (·.render (view.spell later)), later) :: synthesize s host receiver later rest

theorem Viewpoint.bindAll_settle (pending : List TypeKey) (t : TypeTable) (host : String)
    (aliases : AliasTable) (packages : List PackageRef) :
    (⟨t.settle pending, host⟩ : Viewpoint).bindAll aliases packages =
      (⟨t, host⟩ : Viewpoint).bindAll aliases packages := by
  have hb : (⟨t.settle pending, host⟩ : Viewpoint).bind = (⟨t, host⟩ : Viewpoint).bind := by
    funext aliases package
    simp only [bind, knowsName, TypeTable.hasPackage_settle]
  rw [bindAll, bindAll, hb]

theorem synthesize_settled (s : Surroundings) (host receiver : String) (aliases : AliasTable)
    (targets : List (Named Ty)) :
    synthesize s.settled host receiver aliases targets =
      synthesize s host receiver aliases targets := by
  induction targets generalizing aliases with
  | nil => rfl
  | cons target rest ih =>
    simp only [synthesize, Surroundings.settled_table, ResetMethod.of?_settled,
      Viewpoint.bindAll_settle, ih]
    rfl

/-- A pending type cannot be told from one that declares its method: neither by the texts or the
aliases of any targets in any order, nor by what has `Reset()`. Insertions of declarations that are
settled already make the settled table. -/
theorem Surroundings.settled_indistinguishable (s : Surroundings) (host receiver : String)
    (aliases : AliasTable) (targets : List (Named Ty)) :
    synthesize s.settled host receiver aliases targets =
        synthesize s host receiver aliases targets ∧
      (∀ ty, s.settled.hasReset ty = s.hasReset ty) ∧
      ∀ declarations : List Declaration,
        (declarations.foldl TypeTable.declare .empty).settle s.pending =
          (declarations.map (·.settle s.pending)).foldl TypeTable.declare .empty := by
  refine ⟨synthesize_settled s host receiver aliases targets, ?_, ?_⟩
  · intro ty
    exact hasReset_settled s ty
  · intro declarations
    exact TypeTable.settle_foldl_declare s.pending .empty declarations

end ResetMethods
