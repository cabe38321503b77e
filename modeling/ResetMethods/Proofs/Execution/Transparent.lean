import ResetMethods.Proofs.Types.Chain
import ResetMethods.Proofs.Types.Reached
import ResetMethods.Reset.Synthesis

/-!
# ResetMethods.Proofs.Execution.Transparent

Aliases, and what they stand for, as types of operands.

* `TypeTable.Alike`: two types at which the walks along right-hand sides arrive at the same types.
* `hasResetWithin_eq`, `resetWithin_eq_retyped`: such types are not told apart, only their own text
  differs where a statement writes it.
* `Statement.linesAs`: the lines of a statement with a text in the place of its operand's type.
* `alias_transparent`: an alias on a chain with few declarations and its right-hand side have
  `Reset()` together, and their blocks are one text with a hole for the type.
-/

namespace ResetMethods

/-- The walks to the underlying type and along aliases find the same for both types. -/
structure TypeTable.Alike (t : TypeTable) (a b : Ty) : Prop where
  underlying : t.underlying a = t.underlying b
  unalias : t.unalias a = t.unalias b

theorem TypeTable.Alike.refl (t : TypeTable) (ty : Ty) : t.Alike ty ty := ⟨rfl, rfl⟩

theorem TypeTable.Alike.declaration {t : TypeTable} {a b : Ty} (h : t.Alike a b) :
    t.declaration a = t.declaration b := by
  rw [TypeTable.declaration, TypeTable.declaration, h.unalias]

namespace Statement

/-- The statement with another type where it writes the type of its operand. -/
def retyped (ty : Ty) : Statement → Statement
  | .assign e (.composite _) => .assign e (.composite ty)
  | .assign e (.blank _) => .assign e (.blank ty)
  | statement => statement

/-- The lines of a statement with the text `own` where it writes the type of its operand. -/
def linesAs (spell : Ty → String) (own : String) (indent : Nat) : Statement → List Line
  | .assign e (.composite _) => [⟨indent, e.value ++ " = " ++ (own ++ "{}")⟩]
  | .assign e (.blank _) => [⟨indent, e.value ++ " = " ++ ("*new(" ++ own ++ ")")⟩]
  | statement => statement.lines spell indent

theorem lines_retyped (spell : Ty → String) (ty : Ty) (indent : Nat) (statement : Statement) :
    (statement.retyped ty).lines spell indent = statement.linesAs spell (spell ty) indent := by
  cases statement with
  | assign e value => cases value <;> rfl
  | _ => rfl

end Statement

namespace Surroundings

variable {s : Surroundings} {a b : Ty}

theorem hasResetWithin_eq (h : s.table.Alike a b) (fuel : Nat) :
    s.hasResetWithin fuel a = s.hasResetWithin fuel b := by
  cases fuel with
  | zero => rfl
  | succ fuel => rw [hasResetWithin, hasResetWithin, h.declaration]

theorem isDefined_eq (h : s.table.Alike a b) : s.isDefined a = s.isDefined b := by
  rw [isDefined, isDefined, h.unalias]

theorem resetUnresolved_eq (h : s.table.Alike a b) (e : Operand) :
    s.resetUnresolved e a = s.resetUnresolved e b := by
  rw [resetUnresolved, resetUnresolved, h.unalias]

theorem resetUnresolved_retyped (s : Surroundings) (e : Operand) (a b : Ty) :
    (s.resetUnresolved e b).retyped a = s.resetUnresolved e b := by
  unfold resetUnresolved
  split <;> rfl

/-- Types that the walks do not tell apart are reset alike, up to their own text. -/
theorem resetWithin_eq_retyped (h : s.table.Alike a b) (fuel : Nat) (e : Operand) :
    s.resetWithin fuel e a = (s.resetWithin fuel e b).retyped a := by
  unfold resetWithin
  rw [h.underlying]
  cases s.table.underlying b with
  | none =>
    simp only
    rw [resetUnresolved_retyped, resetUnresolved_eq h]
  | some shape =>
    cases fuel with
    | zero => rfl
    | succ fuel =>
      cases shape with
      | pointer elem =>
        simp only
        rw [isDefined_eq h]
        rfl
      | struct fields =>
        have hreset : s.hasReset a = s.hasReset b := hasResetWithin_eq h _
        simp only [hreset]
        split <;> rfl
      | _ => rfl

theorem lines_resetWithin (h : s.table.Alike a b) (fuel : Nat) (e : Operand)
    (spell : Ty → String) (indent : Nat) :
    (s.resetWithin fuel e a).lines spell indent =
      (s.resetWithin fuel e b).linesAs spell (spell a) indent := by
  rw [resetWithin_eq_retyped h, Statement.lines_retyped]

theorem alike_rhs {n : Named Ty} {d : Declaration} {limit : Nat} (hd : s.table.lookup n = some d)
    (ha : d.isAlias = true) (hfew : s.table.PassesFewer limit d.rhs) (hlimit : limit < chainLimit) :
    s.table.Alike (.named n) d.rhs :=
  ⟨TypeTable.underlying_eq_rhs hd hfew hlimit, TypeTable.unalias_eq_rhs hd ha hfew hlimit⟩

/-- An alias and its right-hand side, from which fewer than 60 different declarations follow, have
`Reset()` together, at any depth. The blocks for an operand of either type are the same text, with
the type's own text in the place where the operand's type is written. -/
theorem alias_transparent {n : Named Ty} {d : Declaration} (hd : s.table.lookup n = some d)
    (ha : d.isAlias = true) (hfew : s.table.PassesFewer 60 d.rhs) :
    s.hasReset (.named n) = s.hasReset d.rhs ∧
      (∀ fuel, s.hasResetWithin fuel (.named n) = s.hasResetWithin fuel d.rhs) ∧
      ∀ fuel e, s.resetWithin fuel e (.named n) = (s.resetWithin fuel e d.rhs).retyped (.named n) ∧
        ∀ spell indent,
          let block := fun own => (s.resetWithin fuel e d.rhs).linesAs spell own indent
          (s.resetWithin fuel e (.named n)).lines spell indent = block (spell (.named n)) ∧
            (s.resetWithin fuel e d.rhs).lines spell indent = block (spell d.rhs) := by
  have halike : s.table.Alike (.named n) d.rhs := alike_rhs hd ha hfew (by decide)
  refine ⟨hasResetWithin_eq halike _, hasResetWithin_eq halike, fun fuel e => ⟨?_, ?_⟩⟩
  · exact resetWithin_eq_retyped halike fuel e
  · intro spell indent
    exact ⟨lines_resetWithin halike fuel e spell indent,
      lines_resetWithin (.refl _ _) fuel e spell indent⟩

end Surroundings

/-! ## A chain of two aliases -/

namespace BufferAliases

/-- An alias of the sample package. -/
def another (name : String) (rhs : Ty) : Declaration :=
  { Sample.declare name rhs [] with isAlias := true }

def buffer : Declaration := Sample.declare "Buffer" (.struct [Sample.field "N" (.basic .int)]) []

def scratch : Declaration := another "Scratch" (.named (Sample.ref "Pooled"))

def pooled : Declaration := another "Pooled" (.named (Sample.ref "Buffer"))

/-- `Scratch` is an alias of `Pooled`, and that one of the struct type `Buffer`. -/
def surroundings : Surroundings := ⟨.ofDeclarations [scratch, pooled, buffer], []⟩

theorem lookup_pooled : surroundings.table.lookup (Sample.ref "Pooled") = some pooled := rfl

theorem lookup_buffer : surroundings.table.lookup (Sample.ref "Buffer") = some buffer := rfl

theorem passesFewer : surroundings.table.PassesFewer 60 (.named (Sample.ref "Pooled")) := by
  refine ⟨[⟨"p", "Pooled"⟩, ⟨"p", "Buffer"⟩], by decide, ?_⟩
  rintro k ⟨count, n, d, hleads, -, -, rfl⟩
  cases hleads with
  | refl => exact List.mem_cons_self
  | step hd _ hleads =>
    rw [lookup_pooled] at hd
    cases hd
    cases hleads with
    | refl => exact List.mem_cons_of_mem _ List.mem_cons_self
    | step hd _ hleads =>
      rw [lookup_buffer] at hd
      cases hd
      cases hleads

end BufferAliases

/-- An operand whose type is an alias of an alias, with its own type in the block. -/
theorem Surroundings.alias_transparent_twice :
    let s := BufferAliases.surroundings
    let scratch := Sample.ref "Scratch"
    let pooled := Ty.named (Sample.ref "Pooled")
    let spell := Ty.spell fun package => package.name ++ "."
    s.table.lookup scratch = some (BufferAliases.another "Scratch" pooled) ∧
      (BufferAliases.another "Scratch" pooled).isAlias = true ∧
      s.table.PassesFewer 60 pooled ∧
      s.hasReset (.named scratch) = s.hasReset pooled ∧
      (s.reset (.ofField "obj" "B") (.named scratch)).lines spell 1 =
        (s.reset (.ofField "obj" "B") pooled).linesAs spell "p.Scratch" 1 ∧
      (s.reset (.ofField "obj" "B") pooled).linesAs spell "p.Scratch" 1 =
        [⟨1, "obj.B = p.Scratch{}"⟩] := by
  intro s scratch pooled spell
  have hlookup : s.table.lookup scratch = some (BufferAliases.another "Scratch" pooled) := rfl
  have hfew : s.table.PassesFewer 60 pooled := BufferAliases.passesFewer
  obtain ⟨hreset, -, hblocks⟩ := alias_transparent hlookup rfl hfew
  have hlines := ((hblocks (depthLimit + 1) (.ofField "obj" "B")).2 spell 1).1
  exact ⟨hlookup, rfl, hfew, hreset, hlines, by decide⟩

end ResetMethods
