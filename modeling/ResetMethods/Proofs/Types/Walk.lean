import ResetMethods.Reset.MethodSet

/-!
# ResetMethods.Proofs.Types.Walk

Walks along right-hand sides, and how much of them a bound cuts off.

* `unaliasWithin_mono`, `underlyingWithin_mono`: a walk that has ended does not change with more
  fuel.
* `underlyingWithin_unaliasWithin`: what is left once aliases are removed has the same underlying
  type.
* `unalias_cases_of_underlying`, `underlying_rhs`: what a type is without its aliases.
* `StandsFor`: the type literal at the end of a walk, however long it is.
* `shapeWithin`, `shape?`: the type literal that a type stands for, as long as no generic type is
  involved.
* `bare?`: a type without its aliases.

`shape?` and `bare?` have more fuel than there are declarations, so only a cycle can exhaust it.
-/

namespace ResetMethods
namespace TypeTable

variable {t : TypeTable} {ty u v : Ty}

theorem unaliasWithin_mono {a b : Nat} (h : t.unaliasWithin a ty = some u) (hab : a ≤ b) :
    t.unaliasWithin b ty = some u := by
  induction a generalizing b ty with
  | zero => simp [unaliasWithin] at h
  | succ a ih =>
    obtain ⟨b, rfl⟩ : ∃ c, b = c + 1 := ⟨b - 1, by omega⟩
    cases ty with
    | named n =>
      simp only [unaliasWithin] at h ⊢
      cases hl : t.lookup n with
      | none => rw [hl] at h; exact h
      | some d =>
        rw [hl] at h
        cases ha : d.isAlias with
        | false => simpa [ha] using h
        | true => simp only [ha, if_true] at h ⊢; exact ih h (by omega)
    | _ => exact h

theorem underlyingWithin_mono {a b : Nat} (h : t.underlyingWithin a ty = some u) (hab : a ≤ b) :
    t.underlyingWithin b ty = some u := by
  induction a generalizing b ty with
  | zero => simp [underlyingWithin] at h
  | succ a ih =>
    obtain ⟨b, rfl⟩ : ∃ c, b = c + 1 := ⟨b - 1, by omega⟩
    cases ty with
    | named n =>
      simp only [underlyingWithin] at h ⊢
      cases hl : t.lookup n with
      | none => rw [hl] at h; cases h
      | some d => rw [hl] at h; exact ih h (by omega)
    | _ => exact h

/-- Removing aliases on the way does not change where a walk ends. -/
theorem underlyingWithin_unaliasWithin {fuel : Nat} (h : t.unaliasWithin fuel ty = some v)
    (hu : t.underlyingWithin fuel ty = some u) : t.underlyingWithin fuel v = some u := by
  induction fuel generalizing ty with
  | zero => simp [unaliasWithin] at h
  | succ fuel ih =>
    cases ty with
    | named n =>
      simp only [unaliasWithin] at h
      cases hl : t.lookup n with
      | none => rw [hl] at h; cases h; exact hu
      | some d =>
        rw [hl] at h
        cases ha : d.isAlias with
        | false => simp only [ha] at h; cases h; exact hu
        | true =>
          simp only [ha, if_true] at h
          simp only [underlyingWithin, hl] at hu
          exact underlyingWithin_mono (ih h hu) (by omega)
    | _ => cases h; exact hu

/-- A walk along aliases and one from there on make one walk. -/
theorem underlyingWithin_add {a b : Nat} (h : t.unaliasWithin a ty = some v)
    (hu : t.underlyingWithin b v = some u) : t.underlyingWithin (a + b) ty = some u := by
  induction a generalizing ty with
  | zero => simp [unaliasWithin] at h
  | succ a ih =>
    cases ty with
    | named n =>
      simp only [unaliasWithin] at h
      cases hl : t.lookup n with
      | none =>
        rw [hl] at h
        cases h
        exact underlyingWithin_mono hu (by omega)
      | some d =>
        rw [hl] at h
        cases ha : d.isAlias with
        | false =>
          simp only [ha] at h
          cases h
          exact underlyingWithin_mono hu (by omega)
        | true =>
          simp only [ha, if_true] at h
          rw [Nat.add_right_comm, underlyingWithin, hl]
          exact ih h
    | _ =>
      cases h
      exact underlyingWithin_mono hu (by omega)

/-- A walk that reaches an underlying type passes the end of the aliases. -/
theorem exists_unaliasWithin {fuel : Nat} (hu : t.underlyingWithin fuel ty = some u) :
    ∃ v, t.unaliasWithin fuel ty = some v := by
  induction fuel generalizing ty with
  | zero => simp [underlyingWithin] at hu
  | succ fuel ih =>
    cases ty with
    | named n =>
      simp only [unaliasWithin]
      cases hl : t.lookup n with
      | none => exact ⟨_, rfl⟩
      | some d =>
        simp only [underlyingWithin, hl] at hu
        cases ha : d.isAlias with
        | false => exact ⟨.named n, by simp [ha]⟩
        | true => simpa [ha] using ih hu
    | _ => exact ⟨_, rfl⟩

/-- Without its aliases a type is a declared one, or the type literal that it stands for. -/
theorem unalias_cases_of_underlying (hu : t.underlying ty = some u) :
    (∃ n, t.unalias ty = some (.named n)) ∨ t.unalias ty = some u := by
  obtain ⟨v, ha⟩ := exists_unaliasWithin hu
  have hu := underlyingWithin_unaliasWithin ha hu
  cases v with
  | named n => exact .inl ⟨n, ha⟩
  | _ => cases hu; exact .inr ha

theorem exists_unalias_of_declaration {d : Declaration} (hd : t.declaration ty = some d) :
    ∃ n, t.unalias ty = some (.named n) ∧ t.lookup n = some d := by
  unfold declaration at hd
  split at hd
  · exact ⟨_, ‹_›, hd⟩
  · cases hd

/-- A walk along aliases ends behind the last of them. -/
theorem isAlias_of_unaliasWithin {fuel : Nat} {n : Named Ty} {d : Declaration}
    (h : t.unaliasWithin fuel ty = some (.named n)) (hd : t.lookup n = some d) :
    d.isAlias = false := by
  induction fuel generalizing ty with
  | zero => simp [unaliasWithin] at h
  | succ fuel ih =>
    cases ty with
    | named m =>
      simp only [unaliasWithin] at h
      cases hl : t.lookup m with
      | none =>
        rw [hl] at h
        cases h
        rw [hl] at hd
        cases hd
      | some e =>
        rw [hl] at h
        cases ha : e.isAlias with
        | false =>
          simp only [ha] at h
          cases h
          rw [hl] at hd
          cases hd
          exact ha
        | true =>
          simp only [ha, if_true] at h
          exact ih h
    | _ => cases h

/-- A declared type has the underlying type of its declaration. -/
theorem underlying_rhs {d : Declaration} (hd : t.declaration ty = some d)
    (hu : t.underlying ty = some u) : t.underlying d.rhs = some u := by
  obtain ⟨n, hn, hd⟩ := exists_unalias_of_declaration hd
  have hw := underlyingWithin_unaliasWithin hn hu
  rw [chainLimit, underlyingWithin, hd] at hw
  exact underlyingWithin_mono hw (by decide)

/-! ## Walks without a bound -/

/-- The type literal that a type stands for, however many declarations lead there. -/
def StandsFor (t : TypeTable) (ty shape : Ty) : Prop :=
  ∃ fuel, t.underlyingWithin fuel ty = some shape

variable {shape shape' : Ty}

theorem StandsFor.unique (h : t.StandsFor ty shape) (h' : t.StandsFor ty shape') :
    shape = shape' := by
  obtain ⟨a, ha⟩ := h
  obtain ⟨b, hb⟩ := h'
  have ha := underlyingWithin_mono ha (Nat.le_max_left a b)
  have hb := underlyingWithin_mono hb (Nat.le_max_right a b)
  exact Option.some.inj (ha.symm.trans hb)

theorem standsFor_of_underlying (h : t.underlying ty = some shape) : t.StandsFor ty shape :=
  ⟨chainLimit, h⟩

/-- Aliases stand for what is behind them. -/
theorem standsFor_unalias {fuel : Nat} (h : t.unaliasWithin fuel ty = some v) :
    t.StandsFor ty shape ↔ t.StandsFor v shape := by
  constructor
  · rintro ⟨k, hk⟩
    have h := unaliasWithin_mono h (Nat.le_max_left fuel k)
    have hk := underlyingWithin_mono hk (Nat.le_max_right fuel k)
    exact ⟨max fuel k, underlyingWithin_unaliasWithin h hk⟩
  · rintro ⟨k, hk⟩
    exact ⟨fuel + k, underlyingWithin_add h hk⟩

theorem standsFor_named {n : Named Ty} {d : Declaration} (hd : t.lookup n = some d) :
    t.StandsFor (.named n) shape ↔ t.StandsFor d.rhs shape := by
  constructor
  · rintro ⟨_ | k, hk⟩
    · cases hk
    · rw [underlyingWithin, hd] at hk
      exact ⟨k, hk⟩
  · rintro ⟨k, hk⟩
    exact ⟨k + 1, by rw [underlyingWithin, hd]; exact hk⟩

/-- A declared type stands for what its declaration says. -/
theorem standsFor_rhs {d : Declaration} (hd : t.declaration ty = some d) :
    t.StandsFor ty shape ↔ t.StandsFor d.rhs shape := by
  obtain ⟨n, hn, hd⟩ := exists_unalias_of_declaration hd
  exact (standsFor_unalias hn).trans (standsFor_named hd)

/-! ## Shapes -/

/-- Follows declarations through at most `fuel` types, as long as nothing on the way is generic or
invalid. -/
def shapeWithin (t : TypeTable) : Nat → Ty → Option Ty
  | 0, _ => none
  | fuel + 1, .named n =>
    match t.lookup n with
    | some d => if n.args.isEmpty && d.typeParams.isEmpty then t.shapeWithin fuel d.rhs else none
    | none => none
  | _ + 1, .typeParam _ => none
  | _ + 1, .basic .invalid => none
  | _ + 1, ty => some ty

/-- More types than any walk without a cycle looks at. -/
def walkLimit (t : TypeTable) : Nat := chainLimit + t.size

theorem chainLimit_lt_walkLimit {n : Named Ty} {d : Declaration} (h : t.lookup n = some d) :
    chainLimit < t.walkLimit := by
  have hs : t.entries ≠ [] := by
    intro he
    simp [lookup, Dict.get?, he] at h
  have hs := List.length_pos_iff.2 hs
  rw [walkLimit, Dict.size]
  omega

/-- The type literal that a type stands for. `none` for a type that another package declares outside
the load, for an instance of a generic type, for a type parameter and for the invalid type. -/
def shape? (t : TypeTable) (ty : Ty) : Option Ty := t.shapeWithin t.walkLimit ty

theorem shapeWithin_mono {a b : Nat} (h : t.shapeWithin a ty = some u) (hab : a ≤ b) :
    t.shapeWithin b ty = some u := by
  induction a generalizing b ty with
  | zero => simp [shapeWithin] at h
  | succ a ih =>
    obtain ⟨b, rfl⟩ : ∃ c, b = c + 1 := ⟨b - 1, by omega⟩
    cases ty with
    | named n =>
      simp only [shapeWithin] at h ⊢
      cases hl : t.lookup n with
      | none => rw [hl] at h; cases h
      | some d =>
        rw [hl] at h
        simp only at h ⊢
        split at h
        · rw [if_pos ‹_›]; exact ih h (by omega)
        · cases h
    | basic kind => cases kind <;> exact h
    | _ => exact h

/-- A shape is the underlying type. -/
theorem underlyingWithin_of_shapeWithin {fuel : Nat} (h : t.shapeWithin fuel ty = some u) :
    t.underlyingWithin fuel ty = some u := by
  induction fuel generalizing ty with
  | zero => simp [shapeWithin] at h
  | succ fuel ih =>
    cases ty with
    | named n =>
      simp only [shapeWithin] at h
      cases hl : t.lookup n with
      | none => rw [hl] at h; cases h
      | some d =>
        rw [hl] at h
        simp only at h
        split at h
        · simp only [underlyingWithin, hl]; exact ih h
        · cases h
    | basic kind => cases kind <;> first | exact h | cases h
    | typeParam name => cases h
    | _ => exact h

theorem underlying_of_shapeWithin (h : t.shapeWithin chainLimit ty = some u) :
    t.underlying ty = some u :=
  underlyingWithin_of_shapeWithin h

theorem shape?_of_shapeWithin (h : t.shapeWithin chainLimit ty = some u) : t.shape? ty = some u :=
  shapeWithin_mono h (by simp [walkLimit])

theorem standsFor_of_shape? (h : t.shape? ty = some shape) : t.StandsFor ty shape :=
  ⟨t.walkLimit, underlyingWithin_of_shapeWithin h⟩

/-- The type behind the aliases. -/
def bare? (t : TypeTable) (ty : Ty) : Option Ty := t.unaliasWithin t.walkLimit ty

theorem bare?_of_unalias (h : t.unalias ty = some u) : t.bare? ty = some u :=
  unaliasWithin_mono h (by simp [walkLimit])

end TypeTable
/-- Only a declared type has `Reset()`. -/
theorem Surroundings.exists_unalias_of_hasReset {s : Surroundings} {ty : Ty}
    (h : s.hasReset ty = true) : ∃ n, s.table.unalias ty = some (.named n) := by
  rw [hasReset, hasResetWithin] at h
  cases hd : s.table.declaration ty with
  | none => rw [hd] at h; cases h
  | some d =>
    obtain ⟨n, hn, -⟩ := TypeTable.exists_unalias_of_declaration hd
    exact ⟨n, hn⟩

end ResetMethods
