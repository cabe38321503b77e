import ResetMethods.Proofs.Execution.Located

/-!
# ResetMethods.Proofs.Execution.Effect

What running a `Reset()` method leaves in the receiver.

* `Plain`: a type whose shape is known behind a bounded number of pointers.
* `Runtime.Resets`: the reset state of a value by the shape of its type.
* `Statement.takes_resetWithin`: the statement for an operand reaches that state without a fault.

The values that a statement can be run on are those that fit its type as far as the statement looks
(`Fits`). Values of a type fit it (`HasType.fits`), and so do reset values (`Resets.fits`), which is
what running a method twice rests on.
-/

namespace ResetMethods

/-- A type of known shape behind at most `n` pointers. The walk from each of them to its shape looks
at `limit` types at most. -/
inductive TypeTable.Plain (t : TypeTable) (limit : Nat) : Nat → Ty → Prop where
  | pointer {n : Nat} {ty elem : Ty} :
      t.shapeWithin limit ty = some (.pointer elem) → Plain t limit n elem →
      Plain t limit (n + 1) ty
  | other {n : Nat} {ty shape : Ty} :
      t.shapeWithin limit ty = some shape → (∀ elem, shape ≠ .pointer elem) → Plain t limit n ty

/-- What becomes of a value of a type when it is reset: a scalar gets its zero literal, slices and
maps are emptied but not made `nil`, arrays become zero, channels and functions `nil`. A struct is
reset by its `Reset()`, or else becomes zero. A pointer stays `nil` or keeps its target, which is
reset by its `Reset()` or else by the shape of its type. An interface keeps what it holds, which is
reset by its `Reset()` if it has one. -/
inductive Runtime.Resets (s : Surroundings) (R : Runtime s.table) :
    Ty → GoValue → GoValue → Prop where
  | scalar {ty : Ty} {kind : BasicKind} {v : GoValue} :
      s.table.shape? ty = some (.basic kind) → Resets s R ty v (.scalar kind.zeroLiteral)
  | slice {ty elem : Ty} {elems : Option (List GoValue)} :
      s.table.shape? ty = some (.slice elem) →
      Resets s R ty (.slice elems) (.slice (elems.map fun _ => []))
  | map {ty key value : Ty} {entries : Option (List (GoValue × GoValue))} :
      s.table.shape? ty = some (.map key value) →
      Resets s R ty (.map entries) (.map (entries.map fun _ => []))
  | channel {ty elem : Ty} {d : Direction} {v : GoValue} :
      s.table.shape? ty = some (.channel d elem) → Resets s R ty v (.reference none)
  | function {ty : Ty} {sig : Signature Ty} {v : GoValue} :
      s.table.shape? ty = some (.function sig) → Resets s R ty v (.reference none)
  | array {ty elem : Ty} {length : String} {v z : GoValue} :
      s.table.shape? ty = some (.array length elem) → IsZero s.table R.toExternals ty z →
      Resets s R ty v z
  | zeroed {ty : Ty} {fields : List (Field Ty)} {v z : GoValue} :
      s.table.shape? ty = some (.struct fields) → s.hasReset ty = false →
      IsZero s.table R.toExternals ty z → Resets s R ty v z
  | called {ty : Ty} {fields : List (Field Ty)} {v : GoValue} :
      s.table.shape? ty = some (.struct fields) → s.hasReset ty = true →
      Resets s R ty v (R.reset ty v)
  | nilPointer {ty elem : Ty} :
      s.table.shape? ty = some (.pointer elem) → Resets s R ty (.pointer none) (.pointer none)
  | targetCalled {ty elem : Ty} {v : GoValue} :
      s.table.shape? ty = some (.pointer elem) → s.table.isInterfaceType elem = false →
      s.hasReset elem = true →
      Resets s R ty (.pointer (some v)) (.pointer (some (R.reset elem v)))
  | target {ty elem : Ty} {v w : GoValue} :
      s.table.shape? ty = some (.pointer elem) →
      (s.table.isInterfaceType elem = true ∨ s.hasReset elem = false) → Resets s R elem v w →
      Resets s R ty (.pointer (some v)) (.pointer (some w))
  | nilInterface {ty : Ty} {methods : List (MethodSpec Ty)} {embeds : List Ty} :
      s.table.shape? ty = some (.interface methods embeds) →
      Resets s R ty (.interface none) (.interface none)
  | heldCalled {ty dynamic : Ty} {methods : List (MethodSpec Ty)} {embeds : List Ty}
      {held : GoValue} :
      s.table.shape? ty = some (.interface methods embeds) →
      (s.asksReset methods embeds = true ∨ R.able dynamic = true) →
      Resets s R ty (.interface (some (dynamic, held)))
        (.interface (some (dynamic, R.reset dynamic held)))
  | heldKept {ty dynamic : Ty} {methods : List (MethodSpec Ty)} {embeds : List Ty}
      {held : GoValue} :
      s.table.shape? ty = some (.interface methods embeds) →
      s.asksReset methods embeds = false → R.able dynamic = false →
      Resets s R ty (.interface (some (dynamic, held))) (.interface (some (dynamic, held)))

/-- A value that fits a type as far as resetting it looks. -/
inductive Fits (s : Surroundings) (x : Externals) : Ty → GoValue → Prop where
  | scalar {ty : Ty} {kind : BasicKind} (v : GoValue) :
      s.table.shape? ty = some (.basic kind) → Fits s x ty v
  | slice {ty elem : Ty} (elems : Option (List GoValue)) :
      s.table.shape? ty = some (.slice elem) → Fits s x ty (.slice elems)
  | map {ty key value : Ty} (entries : Option (List (GoValue × GoValue))) :
      s.table.shape? ty = some (.map key value) → Fits s x ty (.map entries)
  | channel {ty elem : Ty} {d : Direction} (v : GoValue) :
      s.table.shape? ty = some (.channel d elem) → Fits s x ty v
  | function {ty : Ty} {sig : Signature Ty} (v : GoValue) :
      s.table.shape? ty = some (.function sig) → Fits s x ty v
  | array {ty elem : Ty} {length : String} (v : GoValue) {z : GoValue} :
      s.table.shape? ty = some (.array length elem) → IsZero s.table x ty z → Fits s x ty v
  | struct {ty : Ty} {fields : List (Field Ty)} (v : GoValue) {z : GoValue} :
      s.table.shape? ty = some (.struct fields) → IsZero s.table x ty z → Fits s x ty v
  | interface {ty : Ty} {methods : List (MethodSpec Ty)} {embeds : List Ty}
      (held : Option (Ty × GoValue)) :
      s.table.shape? ty = some (.interface methods embeds) → Fits s x ty (.interface held)
  | nilPointer {ty elem : Ty} :
      s.table.shape? ty = some (.pointer elem) → Fits s x ty (.pointer none)
  | targetCalled {ty elem : Ty} (v : GoValue) :
      s.table.shape? ty = some (.pointer elem) → s.table.isInterfaceType elem = false →
      s.hasReset elem = true → Fits s x ty (.pointer (some v))
  | target {ty elem : Ty} {v : GoValue} :
      s.table.shape? ty = some (.pointer elem) →
      (s.table.isInterfaceType elem = true ∨ s.hasReset elem = false) → Fits s x elem v →
      Fits s x ty (.pointer (some v))

/-! ## Values that can be reset -/

section Fitting

variable {s : Surroundings} {R : Runtime s.table} {ty : Ty} {n : Nat} {v w u : GoValue}

/-- A value of a type fits it. -/
theorem HasType.fits {x : Externals} (h : HasType s.table x v ty)
    (hp : s.table.Plain chainLimit n ty) : Fits s x ty v := by
  induction hp generalizing v with
  | @pointer n ty elem hs _ ih =>
    have hs := TypeTable.shape?_of_shapeWithin hs
    cases h with
    | nilPointer => exact .nilPointer hs
    | pointer hs' hv =>
      rw [hs] at hs'; cases hs'
      by_cases hc : s.table.isInterfaceType elem = false ∧ s.hasReset elem = true
      · exact .targetCalled _ hs hc.1 hc.2
      · refine .target hs ?_ (ih hv)
        simpa [or_iff_not_imp_left] using hc
    | _ => simp_all
  | other hs hne =>
    have hs := TypeTable.shape?_of_shapeWithin hs
    cases h with
    | scalar _ hs' => exact .scalar _ hs'
    | nilPointer hs' | pointer hs' => rw [hs] at hs'; cases hs'; exact absurd rfl (hne _)
    | nilSlice hs' | slice hs' => exact .slice _ hs'
    | nilMap hs' | map hs' => exact .map _ hs'
    | struct hs' hl hv =>
      obtain ⟨z, hz⟩ := HasType.exists_zero (.struct hs' hl hv)
      exact .struct _ hs' hz
    | array hs' hl hv =>
      obtain ⟨z, hz⟩ := HasType.exists_zero (.array hs' hl hv)
      exact .array _ hs' hz
    | nilInterface hs' | interface hs' => exact .interface _ hs'
    | channel _ hs' => exact .channel _ hs'
    | function _ hs' => exact .function _ hs'
    | foreign _ hs' => rw [hs] at hs'; cases hs'

/-- A reset value fits the type again. -/
theorem Runtime.Resets.fits (h : R.Resets s ty v w) (hv : Fits s R.toExternals ty v) :
    Fits s R.toExternals ty w := by
  induction h with
  | scalar hs => exact .scalar _ hs
  | slice hs => exact .slice _ hs
  | map hs => exact .map _ hs
  | channel hs => exact .channel _ hs
  | function hs => exact .function _ hs
  | array hs hz => exact .array _ hs hz
  | zeroed hs _ hz => exact .struct _ hs hz
  | called hs _ =>
    cases hv with
    | struct _ hs' hz => exact .struct _ hs' hz
    | _ => simp_all
  | nilPointer hs => exact .nilPointer hs
  | targetCalled hs hi hr => exact .targetCalled _ hs hi hr
  | target hs hc _ ih =>
    cases hv with
    | target hs' _ hv => rw [hs] at hs'; cases hs'; exact .target hs hc (ih hv)
    | _ => simp_all
  | nilInterface hs | heldCalled hs | heldKept hs => exact .interface _ hs

/-- To reset a reset value changes nothing. -/
theorem Runtime.Resets.idem (h : R.Resets s ty v w) (h' : R.Resets s ty w u) : u = w := by
  induction h generalizing u with
  | @called ty fields v hs hr =>
    generalize hw : R.reset ty v = w at h'
    cases h' with
    | called => rw [← hw, R.reset_reset]
    | _ => simp_all
  | @array ty elem length v z hs hz =>
    cases h' with
    | array _ hz' => exact hz'.unique hz
    | _ => simp_all
  | @zeroed ty fields v z hs hr hz =>
    cases h' with
    | zeroed _ _ hz' => exact hz'.unique hz
    | _ => simp_all
  | targetCalled hs hi hr =>
    cases h' with
    | targetCalled hs' => rw [hs] at hs'; cases hs'; rw [R.reset_reset]
    | _ => simp_all
  | target hs hc _ ih =>
    cases h' with
    | target hs' _ hw => rw [hs] at hs'; cases hs'; rw [ih hw]
    | _ => simp_all
  | heldCalled hs hc =>
    cases h' with
    | heldCalled => rw [R.reset_reset]
    | _ => simp_all
  | _ => cases h' <;> simp_all [Function.comp_def]

end Fitting

/-! ## What the walks of a synthesis find -/

section Walks

variable {s : Surroundings} {R : Runtime s.table} {ty elem : Ty} {n : Nat} {v : GoValue}

namespace TypeTable.Plain

theorem exists_shape (h : s.table.Plain chainLimit n ty) :
    ∃ shape, s.table.shapeWithin chainLimit ty = some shape := by
  cases h with
  | pointer hs | other hs => exact ⟨_, hs⟩

theorem isInterface_eq (h : s.table.Plain chainLimit n ty) :
    s.isInterface ty = s.table.isInterfaceType ty := by
  obtain ⟨shape, hs⟩ := h.exists_shape
  have hu := underlying_of_shapeWithin hs
  have hshape := shape?_of_shapeWithin hs
  cases shape <;> rw [Surroundings.isInterface, TypeTable.isInterfaceType, hu, hshape]

end TypeTable.Plain

/-- A type without aliases is a declared one or the literal it stands for. -/
theorem TypeTable.unalias_cases {t : TypeTable} {shape : Ty}
    (hs : t.shapeWithin chainLimit ty = some shape) :
    (∃ n, t.unalias ty = some (.named n)) ∨ t.unalias ty = some shape :=
  unalias_cases_of_underlying (underlyingWithin_of_shapeWithin hs)

/-- A call on a value whose type has `Reset()`. -/
theorem Runtime.called_of_hasReset (hr : s.hasReset ty = true)
    (hi : s.table.isInterfaceType ty = false) : R.called ty v = .ok (R.reset ty v) := by
  obtain ⟨n, hn⟩ := Surroundings.exists_unalias_of_hasReset hr
  simp [called, TypeTable.bare?_of_unalias hn, hi]

/-- A call on a pointer reaches its target, if the type of the pointer is not a declared one. -/
theorem Runtime.called_pointer (hs : s.table.shapeWithin chainLimit ty = some (.pointer elem))
    (hd : s.isDefined ty = false) (hi : s.table.isInterfaceType elem = false) :
    R.called ty (.pointer (some v)) = .ok (.pointer (some (R.reset elem v))) := by
  have hn : s.table.unalias ty = some (.pointer elem) := by
    refine (TypeTable.unalias_cases hs).resolve_left ?_
    rintro ⟨n, hn⟩
    simp [Surroundings.isDefined, hn] at hd
  simp [called, TypeTable.bare?_of_unalias hn, hi]

/-- A call on an interface reaches the value it holds. -/
theorem Runtime.called_interface {methods : List (MethodSpec Ty)} {embeds : List Ty} {dynamic : Ty}
    (hs : s.table.shapeWithin chainLimit ty = some (.interface methods embeds)) :
    R.called ty (.interface (some (dynamic, v))) =
      .ok (.interface (some (dynamic, R.reset dynamic v))) := by
  have hi : s.table.isInterfaceType ty = true := by
    simp [TypeTable.isInterfaceType, TypeTable.shape?_of_shapeWithin hs]
  obtain ⟨n, hn⟩ | hn := TypeTable.unalias_cases hs
  all_goals simp [called, TypeTable.bare?_of_unalias hn, hi]

end Walks

/-! ## One operand -/

section Operand

variable {s : Surroundings} {R : Runtime s.table} {F : Frame} {values : List GoValue} {e : Operand}
  {i n : Nat} {ty : Ty} {root v x new : GoValue} {body : Statement}

/-- To overwrite the target of a pointer is to overwrite the pointer by one to the new value. -/
theorem Located.setBehind_target
    (hl : Located s.table F values e i root ty (.pointer (some x))) :
    root.setBehind e.target.derefs new = root.setBehind e.derefs (.pointer (some new)) := by
  obtain ⟨_, _, hv⟩ := hl.follow
  exact GoValue.setBehind_succ hv

/-- The statement for a pointer that is not `nil`, given what the statement for its target does. -/
theorem Statement.takes_reset_pointer {elem : Ty}
    (hs : s.table.shapeWithin chainLimit ty = some (.pointer elem))
    (hp : s.table.Plain chainLimit n elem)
    (hl : Located s.table F values e i root ty (.pointer (some x)))
    (ih : s.table.isInterfaceType elem = true ∨ s.hasReset elem = false →
      ∃ new, (s.resetWithin (n + 1) e.target elem).Takes R F values
        (values.set i (root.setBehind e.target.derefs new)) ∧ R.Resets s elem x new) :
    ∃ new, (s.resetWithin (n + 2) e ty).Takes R F values
      (values.set i (root.setBehind e.derefs new)) ∧ R.Resets s ty (.pointer (some x)) new := by
  have hshape := TypeTable.shape?_of_shapeWithin hs
  rw [Surroundings.resetWithin, TypeTable.underlying_of_shapeWithin hs]
  simp only [hp.isInterface_eq, takes_guarded hl rfl]
  by_cases hc : s.table.isInterfaceType elem = false ∧ s.hasReset elem = true
  · obtain ⟨hi, hr⟩ := hc
    refine ⟨_, ?_, .targetCalled hshape hi hr⟩
    simp only [hi, hr, Bool.not_false, Bool.and_self, if_true]
    cases hd : s.isDefined ty with
    | true =>
      rw [← hl.setBehind_target]
      exact takes_call (hl.target hshape) (Runtime.called_of_hasReset hr hi)
    | false => exact takes_call hl (Runtime.called_pointer hs hd hi)
  · have hc : s.table.isInterfaceType elem = true ∨ s.hasReset elem = false := by
      simpa [or_iff_not_imp_left] using hc
    obtain ⟨new, htakes, hnew⟩ := ih hc
    refine ⟨_, ?_, .target hshape hc hnew⟩
    rw [if_neg (by simpa [or_iff_not_imp_left] using hc), ← hl.setBehind_target]
    exact htakes

/-- The statement for an interface. -/
theorem Statement.takes_reset_interface {methods : List (MethodSpec Ty)} {embeds : List Ty}
    {held : Option (Ty × GoValue)}
    (hs : s.table.shapeWithin chainLimit ty = some (.interface methods embeds))
    (hl : Located s.table F values e i root ty (.interface held)) :
    ∃ new, (s.resetWithin (n + 1) e ty).Takes R F values
      (values.set i (root.setBehind e.derefs new)) ∧ R.Resets s ty (.interface held) new := by
  have hshape := TypeTable.shape?_of_shapeWithin hs
  rw [Surroundings.resetWithin, TypeTable.underlying_of_shapeWithin hs]
  cases held with
  | none => exact ⟨_, takes_guarded_of_nil hl rfl, .nilInterface hshape⟩
  | some held =>
    obtain ⟨dynamic, held⟩ := held
    simp only [takes_guarded hl rfl]
    cases ha : s.asksReset methods embeds with
    | true => exact ⟨_, takes_call hl (Runtime.called_interface hs), .heldCalled hshape (.inl ha)⟩
    | false =>
      have hi : s.table.isInterfaceType ty = true := by
        rw [TypeTable.isInterfaceType, hshape]
      refine ⟨_, takes_callIfAble hl hi, ?_⟩
      cases hb : R.able dynamic with
      | true => exact .heldCalled hshape (.inr hb)
      | false => exact .heldKept hshape ha hb

/-- The statement for an operand runs without a fault and resets what lies there by its type. -/
theorem Statement.takes_resetWithin (hp : s.table.Plain chainLimit n ty)
    (hl : Located s.table F values e i root ty v) (hf : Fits s R.toExternals ty v) :
    ∃ new, (s.resetWithin (n + 1) e ty).Takes R F values
      (values.set i (root.setBehind e.derefs new)) ∧ R.Resets s ty v new := by
  induction hp generalizing e v with
  | @pointer n ty elem hs hp ih =>
    have hshape := TypeTable.shape?_of_shapeWithin hs
    cases hf with
    | nilPointer =>
      rw [Surroundings.resetWithin, TypeTable.underlying_of_shapeWithin hs]
      exact ⟨_, takes_guarded_of_nil hl rfl, .nilPointer hshape⟩
    | targetCalled x hs' hi hr =>
      rw [hshape] at hs'; cases hs'
      exact takes_reset_pointer hs hp hl fun hc => by simp [hi, hr] at hc
    | target hs' _ hx =>
      rw [hshape] at hs'; cases hs'
      exact takes_reset_pointer hs hp hl fun _ => ih (hl.target hshape) hx
    | _ => simp_all
  | @other n ty shape hs hne =>
    have hshape := TypeTable.shape?_of_shapeWithin hs
    have hu := TypeTable.underlying_of_shapeWithin hs
    cases hf with
    | scalar _ hs' =>
      rw [hshape] at hs'; cases hs'
      rw [Surroundings.resetWithin, hu]
      exact ⟨_, takes_assign hl (TypeTable.literalValue_zero hshape), .scalar hshape⟩
    | slice _ hs' =>
      rw [hshape] at hs'; cases hs'
      rw [Surroundings.resetWithin, hu]
      exact ⟨_, takes_assign hl (Runtime.valueFor_emptied hl hshape), .slice hshape⟩
    | map _ hs' =>
      rw [hshape] at hs'; cases hs'
      rw [Surroundings.resetWithin, hu]
      exact ⟨_, takes_clear hl (by simp [TypeTable.cleared, hshape]), .map hshape⟩
    | channel _ hs' =>
      rw [hshape] at hs'; cases hs'
      rw [Surroundings.resetWithin, hu]
      exact ⟨_, takes_assign hl (by simp [Runtime.valueFor_null, TypeTable.nilValue, hshape]),
        .channel hshape⟩
    | function _ hs' =>
      rw [hshape] at hs'; cases hs'
      rw [Surroundings.resetWithin, hu]
      exact ⟨_, takes_assign hl (by simp [Runtime.valueFor_null, TypeTable.nilValue, hshape]),
        .function hshape⟩
    | array _ hs' hz =>
      rw [hshape] at hs'; cases hs'
      rw [Surroundings.resetWithin, hu]
      exact ⟨_, takes_assign hl (Runtime.valueFor_composite hz), .array hshape hz⟩
    | struct _ hs' hz =>
      rw [hshape] at hs'; cases hs'
      have hi : s.table.isInterfaceType ty = false := by
        rw [TypeTable.isInterfaceType, hshape]
      rw [Surroundings.resetWithin, hu]
      cases hr : s.hasReset ty with
      | true => exact ⟨_, takes_call hl (Runtime.called_of_hasReset hr hi), .called hshape hr⟩
      | false =>
        exact ⟨_, takes_assign hl (Runtime.valueFor_composite hz), .zeroed hshape hr hz⟩
    | interface _ hs' => rw [hshape] at hs'; cases hs'; exact takes_reset_interface hs hl
    | nilPointer hs' | targetCalled _ hs' | target hs' =>
      rw [hshape] at hs'; cases hs'; exact absurd rfl (hne _)

end Operand

end ResetMethods
