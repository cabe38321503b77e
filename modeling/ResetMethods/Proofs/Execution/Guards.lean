import ResetMethods.Proofs.MethodSet.Promotion

/-!
# ResetMethods.Proofs.Execution.Guards

The branches of a block, and what they guard.

* `Part`, `CodeLine`, `Statement.block`: the lines of a statement with the operands in them and the
  branches that they close and open. `Statement.lines_eq_block`: these are the lines that are
  written.
* `Reads`: reading lines from some open branches on leaves others open.
* `TypeTable.Behind`: the type of an operand, without a bound on walks.
* `Guards`: a line only follows operands that the branches around it find not to be `nil`.
* `reset_guarded`: all lines of a block do, but for one kind of call, and every branch is closed.
* `pointerHandle`: the call of that kind.
-/

namespace ResetMethods

open Text (closeBrace openBrace)

/-! ## The lines of a block -/

/-- A part of a line. -/
inductive Part where
  | text (s : String)
  | type (ty : Ty)
  | operand (e : Operand)
  /-- An operand, cut to length zero. -/
  | cut (e : Operand)
  /-- The call of an operand's `Reset()`. -/
  | call (e : Operand)
  /-- The assertion that an operand has `Reset()`. -/
  | assertion (e : Operand)

namespace Part

def spell (spell : Ty → String) : Part → String
  | .text s => s
  | .type ty => spell ty
  | .operand e => e.value
  | .cut e => e.primary ++ "[:0]"
  | .call e => e.primary ++ ".Reset()"
  | .assertion e => e.primary ++ ".(interface{ Reset() })"

/-- The operand that a part spells. -/
def operand? : Part → Option Operand
  | .text _ | .type _ => none
  | .operand e | .cut e | .call e | .assertion e => some e

end Part

/-- A line of a block. -/
structure CodeLine where
  indent : Nat
  /-- The line starts with the brace that closes the innermost branch. -/
  closes : Bool
  parts : List Part
  /-- The line ends with the brace that opens a branch. -/
  opens : Bool

def CodeLine.line (spell : Ty → String) (l : CodeLine) : Line where
  indent := l.indent
  text := (if l.closes then closeBrace else "") ++ String.join (l.parts.map (·.spell spell)) ++
    if l.opens then " " ++ openBrace else ""

def Value.parts (e : Operand) : Value → List Part
  | .zero kind => [.text kind.zeroLiteral]
  | .null => [.text "nil"]
  | .emptied => [.cut e]
  | .composite type => [.type type, .text "{}"]
  | .blank type => [.text "*new(", .type type, .text ")"]

/-- The pointer to an operand that lies behind a pointer is an operand. -/
def Operand.addressParts (e : Operand) : List Part :=
  match e.derefs with
  | 0 => [.text "&", .operand e]
  | n + 1 => [.operand { e with derefs := n }]

namespace Statement

/-- The lines of a statement. -/
def block (indent : Nat) : Statement → List CodeLine
  | .assign e value => [⟨indent, false, .operand e :: .text " = " :: value.parts e, false⟩]
  | .clear e => [⟨indent, false, [.text "clear(", .operand e, .text ")"], false⟩]
  | .call e => [⟨indent, false, [.call e], false⟩]
  | .guarded e body =>
    ⟨indent, false, [.text "if ", .operand e, .text " != nil"], true⟩ ::
      body.block (indent + 1) ++ [⟨indent, true, [], false⟩]
  | .callIfAble e =>
    [⟨indent, false, [.text "if r, ok := ", .assertion e, .text "; ok"], true⟩,
      ⟨indent + 1, false, [.text "r.Reset()"], false⟩,
      ⟨indent, true, [], false⟩]
  | .probe e type =>
    [⟨indent, false, .text "if r, ok := any(" :: e.addressParts ++
        [.text ").(interface{ Reset() }); ok"], true⟩,
      ⟨indent + 1, false, [.text "r.Reset()"], false⟩,
      ⟨indent, true, [.text " else if r, ok := any(", .operand e,
        .text ").(interface{ Reset() }); ok"], true⟩,
      ⟨indent + 1, false, [.text "r.Reset()"], false⟩,
      ⟨indent, true, [.text " else"], true⟩,
      ⟨indent + 1, false, .operand e :: .text " = " :: (Value.blank type).parts e, false⟩,
      ⟨indent, true, [], false⟩]

theorem lines_eq_block (spell : Ty → String) (indent : Nat) (statement : Statement) :
    statement.lines spell indent = (statement.block indent).map (·.line spell) := by
  induction statement generalizing indent with
  | assign e value =>
    cases value <;> simp [lines, block, CodeLine.line, Value.parts, Value.spell, Part.spell,
      String.join, ← String.toList_inj]
  | clear e => simp [lines, block, CodeLine.line, Part.spell, String.join]
  | call e => simp [lines, block, CodeLine.line, Part.spell, String.join]
  | guarded e body ih =>
    simp [lines, block, CodeLine.line, Part.spell, String.join, ih, ← String.toList_inj]
  | callIfAble e =>
    simp [lines, block, CodeLine.line, Part.spell, String.join, ResetMethods.assertion,
      ← String.toList_inj]
  | probe e type =>
    obtain ⟨receiver, field, derefs⟩ := e
    cases derefs <;> simp [lines, block, CodeLine.line, Part.spell, String.join,
      ResetMethods.assertion, Operand.addressParts, Operand.address, Operand.value,
      Operand.selector, Value.parts, Operand.stars, ← String.toList_inj]

end Statement

/-! ## Branches -/

/-- A branch, by the operand that is known not to be `nil` in it, if there is one. -/
abbrev Branch := Option Operand

namespace CodeLine

/-- The branches around what a line says, with those around its start given. `none` if the line
closes a branch and there is none. -/
def around? (l : CodeLine) (outer : List Branch) : Option (List Branch) :=
  if l.closes then
    match outer with
    | [] => none
    | _ :: outer => some outer
  else some outer

/-- The branch that a line opens. -/
def branch (l : CodeLine) : Branch :=
  match l.parts with
  | [.text "if ", .operand e, .text " != nil"] => some e
  | _ => none

/-- The branches behind a line. -/
def behind (l : CodeLine) (around : List Branch) : List Branch :=
  if l.opens then l.branch :: around else around

end CodeLine

/-- To read lines in some branches closes no others and leaves the branches `left` open. `ok` holds
of each line and of the branches around it. -/
inductive Reads (ok : List Branch → CodeLine → Prop) :
    List Branch → List CodeLine → List Branch → Prop where
  | nil (outer : List Branch) : Reads ok outer [] outer
  | cons {outer around left : List Branch} {l : CodeLine} {ls : List CodeLine} :
      l.around? outer = some around → ok around l → Reads ok (l.behind around) ls left →
      Reads ok outer (l :: ls) left

theorem Reads.append {ok : List Branch → CodeLine → Prop} {outer mid left : List Branch}
    {ls ls' : List CodeLine} (h : Reads ok outer ls mid) (h' : Reads ok mid ls' left) :
    Reads ok outer (ls ++ ls') left := by
  induction h with
  | nil => exact h'
  | cons ha hok _ ih => exact .cons ha hok (ih h')

/-! ## Types of operands -/

namespace TypeTable

variable {t : TypeTable} {ty root elem shape shape' : Ty} {n : Nat}

/-- The type of what lies `n` pointers behind a value of the type `root`. -/
inductive Behind (t : TypeTable) (root : Ty) : Nat → Ty → Prop where
  | zero : Behind t root 0 root
  | succ {n : Nat} {ty elem : Ty} :
      Behind t root n ty → t.StandsFor ty (.pointer elem) → Behind t root (n + 1) elem

/-- A pointer type or an interface type. -/
inductive IsFollowed (t : TypeTable) (ty : Ty) : Prop where
  | pointer {elem : Ty} : t.StandsFor ty (.pointer elem) → IsFollowed t ty
  | interface {methods : List (MethodSpec Ty)} {embeds : List Ty} :
      t.StandsFor ty (.interface methods embeds) → IsFollowed t ty

theorem Behind.unique {ty' : Ty} (h : t.Behind root n ty) (h' : t.Behind root n ty') :
    ty = ty' := by
  induction h generalizing ty' with
  | zero =>
    cases h'
    rfl
  | succ _ hs ih =>
    cases h' with
    | succ h' hs' =>
      cases ih h'
      cases hs.unique hs'
      rfl

theorem IsFollowed.rhs {d : Declaration} (h : t.IsFollowed ty) (hd : t.declaration ty = some d) :
    t.IsFollowed d.rhs := by
  cases h with
  | pointer h => exact .pointer ((standsFor_rhs hd).1 h)
  | interface h => exact .interface ((standsFor_rhs hd).1 h)

/-- Neither a pointer type nor an interface type is any other type literal. -/
theorem IsFollowed.cases (h : t.IsFollowed ty) (hs : t.StandsFor ty shape) :
    (∃ elem, shape = .pointer elem) ∨ ∃ methods embeds, shape = .interface methods embeds := by
  cases h with
  | pointer h => exact .inl ⟨_, hs.unique h⟩
  | interface h => exact .inr ⟨_, _, hs.unique h⟩

end TypeTable

/-! ## Guards -/

/-- In the branches around a line, all that it follows is found not to be `nil`. Its operands start
from the field `start`, of the type `root`. A call is exempt for some types of its operand. -/
structure Guards (t : TypeTable) (start : Operand) (root : Ty) (exempt : Ty → Prop)
    (around : List Branch) (l : CodeLine) : Prop where
  origin : ∀ part ∈ l.parts, ∀ e, part.operand? = some e → e = { start with derefs := e.derefs }
  /-- Every pointer on the way to an operand. -/
  dereference : ∀ part ∈ l.parts, ∀ e, part.operand? = some e →
    ∀ n < e.derefs, some { e with derefs := n } ∈ around
  assertion : ∀ e, .assertion e ∈ l.parts → some e ∈ around
  call : ∀ e ty, .call e ∈ l.parts → t.Behind root e.derefs ty → t.IsFollowed ty →
    (some e ∈ around ↔ ¬ exempt ty)

/-- The branches that follow the pointers up to an operand. -/
def Operand.guards (e : Operand) : List Branch :=
  (List.range e.derefs).reverse.map fun n => some { e with derefs := n }

theorem Operand.target_guards (e : Operand) : e.target.guards = some e :: e.guards := by
  simp [guards, target, List.range_succ]

theorem Operand.mem_guards {e p : Operand} :
    some p ∈ e.guards ↔ ∃ n < e.derefs, { e with derefs := n } = p := by
  simp [guards]

/-- A part that spells nothing that lies behind `e`. -/
def Part.Within (e : Operand) (part : Part) : Prop :=
  ∀ e', part.operand? = some e' → ∃ n ≤ e.derefs, e' = { e with derefs := n }

/-- A part within `e` that selects nothing. -/
structure Part.IsPlain (e : Operand) (part : Part) : Prop where
  within : part.Within e
  no_call : ∀ e', part ≠ .call e'
  no_assertion : ∀ e', part ≠ .assertion e'

namespace Part

theorem within_self {e : Operand} {part : Part} (h : ∀ e', part.operand? = some e' → e' = e) :
    part.Within e := fun e' he' => ⟨e.derefs, Nat.le_refl _, h e' he'⟩

@[simp] theorem isPlain_text (e : Operand) (s : String) : (text s).IsPlain e :=
  ⟨nofun, nofun, nofun⟩

@[simp] theorem isPlain_type (e : Operand) (ty : Ty) : (type ty).IsPlain e := ⟨nofun, nofun, nofun⟩

@[simp] theorem isPlain_operand (e : Operand) : (operand e).IsPlain e :=
  ⟨within_self fun _ h => (Option.some.inj h).symm, nofun, nofun⟩

@[simp] theorem isPlain_cut (e : Operand) : (cut e).IsPlain e :=
  ⟨within_self fun _ h => (Option.some.inj h).symm, nofun, nofun⟩

end Part

theorem Value.parts_plain (e : Operand) (value : Value) :
    ∀ part ∈ value.parts e, part.IsPlain e := by
  cases value <;> simp [parts]

theorem Operand.addressParts_plain (e : Operand) : ∀ part ∈ e.addressParts, part.IsPlain e := by
  obtain ⟨receiver, field, derefs⟩ := e
  cases derefs with
  | zero => simp [addressParts]
  | succ n =>
    have hn : (Part.operand ⟨receiver, field, n⟩).Within ⟨receiver, field, n + 1⟩ :=
      fun e' he' => ⟨n, Nat.le_succ n, (Option.some.inj he').symm⟩
    simpa [addressParts] using ⟨hn, nofun, nofun⟩

section Lines

variable {t : TypeTable} {start e : Operand} {root : Ty} {exempt : Ty → Prop}
  {around outer : List Branch} {l : CodeLine}

/-- A line within `e`, in the branches that follow the pointers up to `e`. -/
theorem Guards.of_within (he : e = { start with derefs := e.derefs })
    (hl : ∀ part ∈ l.parts, part.Within e) (ha : ∀ b ∈ e.guards, b ∈ around)
    (hassertion : ∀ e', .assertion e' ∈ l.parts → some e' ∈ around)
    (hcall : ∀ e' ty, .call e' ∈ l.parts → t.Behind root e'.derefs ty → t.IsFollowed ty →
      (some e' ∈ around ↔ ¬ exempt ty)) :
    Guards t start root exempt around l where
  origin part hp e' he' := by
    obtain ⟨n, -, rfl⟩ := hl part hp e' he'
    rw [he]
  dereference part hp e' he' m hm := by
    obtain ⟨n, hn, rfl⟩ := hl part hp e' he'
    exact ha _ (Operand.mem_guards.2 ⟨m, Nat.lt_of_lt_of_le hm hn, rfl⟩)
  assertion := hassertion
  call := hcall

theorem Guards.of_plain (he : e = { start with derefs := e.derefs })
    (hl : ∀ part ∈ l.parts, part.IsPlain e) (ha : ∀ b ∈ e.guards, b ∈ around) :
    Guards t start root exempt around l :=
  .of_within he (fun part hp => (hl part hp).within) ha
    (fun e' hp => absurd rfl ((hl _ hp).no_assertion e'))
    fun e' _ hp => absurd rfl ((hl _ hp).no_call e')

/-- A line that spells and follows nothing new. -/
theorem reads_plain {parts : List Part} {k : Nat} (he : e = { start with derefs := e.derefs })
    (hl : ∀ part ∈ parts, part.IsPlain e) :
    Reads (Guards t start root exempt) e.guards [⟨k, false, parts, false⟩] e.guards :=
  .cons rfl (.of_plain he hl fun _ hb => hb) (.nil _)

theorem reads_assign (he : e = { start with derefs := e.derefs }) (value : Value) (k : Nat) :
    Reads (Guards t start root exempt) e.guards ((Statement.assign e value).block k) e.guards :=
  reads_plain he (by simpa using value.parts_plain e)

theorem reads_clear (he : e = { start with derefs := e.derefs }) (k : Nat) :
    Reads (Guards t start root exempt) e.guards ((Statement.clear e).block k) e.guards :=
  reads_plain he (by simp)

/-- A line that says nothing of an operand. -/
theorem Guards.of_text (k : Nat) (closes opens : Bool) (s : String) :
    Guards t start root exempt around ⟨k, closes, [.text s], opens⟩ := by
  constructor <;> simp [Part.operand?]

theorem Guards.of_close (k : Nat) : Guards t start root exempt around ⟨k, true, [], false⟩ := by
  constructor <;> simp

theorem reads_probe (he : e = { start with derefs := e.derefs }) (type : Ty) (k : Nat) :
    Reads (Guards t start root exempt) e.guards ((Statement.probe e type).block k) e.guards := by
  have haddress : ∀ part ∈ Part.text "if r, ok := any(" :: e.addressParts ++
      [.text ").(interface{ Reset() }); ok"], part.IsPlain e := by
    have h := e.addressParts_plain
    simp only [List.mem_append, List.mem_cons, List.not_mem_nil, or_false]
    rintro part ((rfl | hp) | rfl)
    · simp
    · exact h part hp
    · simp
  refine .cons rfl (.of_plain he haddress fun _ hb => hb) (.cons rfl (.of_text ..) ?_)
  refine .cons rfl (.of_plain he (by simp) fun _ hb => hb) (.cons rfl (.of_text ..) ?_)
  refine .cons rfl (.of_text ..) (.cons rfl ?_ (.cons rfl (.of_close _) (.nil _)))
  exact .of_plain he (by simp [Value.parts]) fun _ hb => List.mem_cons_of_mem _ hb

theorem reads_guarded {body : Statement} (he : e = { start with derefs := e.derefs }) (k : Nat)
    (h : Reads (Guards t start root exempt) (some e :: e.guards) (body.block (k + 1))
      (some e :: e.guards)) :
    Reads (Guards t start root exempt) e.guards ((Statement.guarded e body).block k) e.guards :=
  .cons rfl (.of_plain he (by simp) fun _ hb => hb) (h.append (.cons rfl (.of_close k) (.nil _)))

theorem reads_call (he : e = { start with derefs := e.derefs }) (k : Nat)
    (ha : ∀ b ∈ e.guards, b ∈ around)
    (hc : ∀ ty, t.Behind root e.derefs ty → t.IsFollowed ty → (some e ∈ around ↔ ¬ exempt ty)) :
    Reads (Guards t start root exempt) around ((Statement.call e).block k) around := by
  have hwithin : (Part.call e).Within e := Part.within_self fun _ h => (Option.some.inj h).symm
  refine .cons rfl (.of_within he (by simpa using hwithin) ha (by simp) ?_) (.nil _)
  rintro e' ty hp hb hf
  cases List.mem_singleton.1 hp
  exact hc ty hb hf

theorem reads_callIfAble (he : e = { start with derefs := e.derefs }) (k : Nat) :
    Reads (Guards t start root exempt) (some e :: e.guards) ((Statement.callIfAble e).block k)
      (some e :: e.guards) := by
  have hwithin : (Part.assertion e).Within e :=
    Part.within_self fun _ h => (Option.some.inj h).symm
  have hparts : ∀ part ∈ [Part.text "if r, ok := ", .assertion e, .text "; ok"],
      part.Within e := by
    simpa using ⟨(Part.isPlain_text e _).within, hwithin, (Part.isPlain_text e _).within⟩
  refine .cons rfl (.of_within he hparts (fun _ hb => List.mem_cons_of_mem _ hb) ?_ (by simp)) ?_
  · simp
  · exact .cons rfl (.of_text ..) (.cons rfl (.of_close k) (.nil _))

end Lines

/-! ## The block of a field -/

namespace Surroundings

variable {s : Surroundings} {ty elem : Ty} {start e : Operand} {root : Ty}

/-- A type that is found to be no interface and has a `Reset()` of its own: it declares the method or
is about to get it. -/
structure IsOwner (s : Surroundings) (ty : Ty) : Prop where
  not_interface : s.isInterface ty = false
  owns : s.Owns ty .reset

theorem IsOwner.exists_declaration (h : s.IsOwner ty) : ∃ d, s.table.declaration ty = some d := by
  obtain ⟨hi, ho⟩ := h
  generalize hm : Member.reset = member at ho
  cases ho with
  | pending hd => exact ⟨_, hd⟩
  | method hd => exact ⟨_, hd⟩
  | field => cases hm
  | demanded h => exact absurd h (not_demands hi)

/-- Only a struct promotes anything, so a pointer or interface type has no `Reset()` but its own. -/
theorem isOwner_of_hasReset (hf : s.table.IsFollowed ty) (hi : s.isInterface ty = false)
    (h : s.hasReset ty = true) : s.IsOwner ty := by
  rw [hasReset, hasResetWithin] at h
  cases hd : s.table.declaration ty with
  | none => simp [hd] at h
  | some d =>
    rw [hd] at h
    refine ⟨hi, (owns_reset_iff hd hi).2 ?_⟩
    by_cases hp : d.key ∈ s.pending
    · exact .inl hp
    by_cases hm : d.methods.any (·.isReset) = true
    · exact .inr hm
    simp only [List.contains_iff_mem, hp, if_false, hm] at h
    cases hu : s.table.underlying d.rhs with
    | none => simp [hu] at h
    | some shape =>
      cases shape with
      | struct fields =>
        have hcases := (hf.rhs hd).cases (TypeTable.standsFor_of_underlying hu)
        simp at hcases
      | _ => simp [hu] at h

theorem reads_resetUnresolved (he : e = { start with derefs := e.derefs }) (ty : Ty) (k : Nat) :
    Reads (Guards s.table start root s.IsOwner) e.guards ((s.resetUnresolved e ty).block k)
      e.guards := by
  unfold resetUnresolved
  split
  · exact reads_probe he _ k
  · exact reads_assign he .null k

/-- In the branch for a pointer that is not `nil`, its target is reset by its own `Reset()`. -/
theorem reads_delegation (he : e = { start with derefs := e.derefs })
    (ht : s.table.Behind root e.derefs ty) (hu : s.table.underlying ty = some (.pointer elem))
    (hi : s.isInterface elem = false) (hr : s.hasReset elem = true) (k : Nat) :
    Reads (Guards s.table start root s.IsOwner) (some e :: e.guards)
      ((Statement.call (if s.isDefined ty then e.target else e)).block k)
      (some e :: e.guards) := by
  have hs := TypeTable.standsFor_of_underlying hu
  cases hd : s.isDefined ty with
  | true =>
    have he' : e.target = { start with derefs := e.target.derefs } := by
      rw [Operand.target, he]
    rw [if_pos rfl]
    refine reads_call he' k (fun b hb => e.target_guards ▸ hb) fun ty' hb hf => ?_
    cases (ht.succ hs).unique hb
    -- The guards around the call stop one pointer short of its operand.
    have hout : some e.target ∉ some e :: e.guards := by
      rw [← e.target_guards, Operand.mem_guards]
      rintro ⟨n, hn, heq⟩
      have heq := congrArg Operand.derefs heq
      simp only at heq
      omega
    simp [hout, isOwner_of_hasReset hf hi hr]
  | false =>
    rw [if_neg Bool.false_ne_true]
    refine reads_call he k (fun b hb => List.mem_cons_of_mem _ hb) fun ty' hb _ => ?_
    cases ht.unique hb
    have hown : ¬ s.IsOwner ty := by
      intro ho
      obtain ⟨d, hdecl⟩ := ho.exists_declaration
      obtain ⟨n, hn, -⟩ := TypeTable.exists_unalias_of_declaration hdecl
      simp [isDefined, hn] at hd
    simp [hown]

theorem reads_resetWithin (he : e = { start with derefs := e.derefs })
    (ht : s.table.Behind root e.derefs ty) (fuel k : Nat) :
    Reads (Guards s.table start root s.IsOwner) e.guards ((s.resetWithin fuel e ty).block k)
      e.guards := by
  induction fuel generalizing e ty k with
  | zero =>
    unfold resetWithin
    cases s.table.underlying ty with
    | none => exact reads_resetUnresolved he ty k
    | some shape => exact reads_assign he (.blank ty) k
  | succ fuel ih =>
    unfold resetWithin
    cases hu : s.table.underlying ty with
    | none => exact reads_resetUnresolved he ty k
    | some shape =>
      have hs := TypeTable.standsFor_of_underlying hu
      cases shape with
      | pointer elem =>
        refine reads_guarded he k ?_
        split
        · rename_i hd
          rw [Bool.and_eq_true, Bool.not_eq_true'] at hd
          exact reads_delegation he ht hu hd.1 hd.2 (k + 1)
        · have he' : e.target = { start with derefs := e.target.derefs } := by
            rw [Operand.target, he]
          rw [← e.target_guards]
          exact ih he' (ht.succ hs) (k + 1)
      | interface methods embeds =>
        refine reads_guarded he k ?_
        split
        · refine reads_call he (k + 1) (fun b hb => List.mem_cons_of_mem _ hb) fun ty' hb _ => ?_
          cases ht.unique hb
          have hown : ¬ s.IsOwner ty := fun h => by
            simpa [isInterface, hu] using h.not_interface
          simp [hown]
        · exact reads_callIfAble he (k + 1)
      | struct fields =>
        simp only
        split
        · refine reads_call he k (fun b hb => hb) fun ty' hb hf => ?_
          cases ht.unique hb
          simpa using hf.cases hs
        · exact reads_assign he (.composite ty) k
      | slice => exact reads_assign he .emptied k
      | map => exact reads_clear he k
      | array => exact reads_assign he (.composite ty) k
      | basic kind => exact reads_assign he (.zero kind) k
      | channel => exact reads_assign he .null k
      | function => exact reads_assign he .null k
      | typeParam => exact reads_assign he (.blank ty) k
      | named => exact reads_assign he (.blank ty) k

/-- The block of a field. A line that follows a pointer or asserts on an interface stands in the
branches that find all of that not to be `nil`, and so does every call on an operand of a pointer or
interface type, but for such types with a `Reset()` of their own. Every branch is closed. -/
theorem reset_guarded (s : Surroundings) (receiver field : String) (ty : Ty) (indent : Nat) :
    (∀ spell : Ty → String, (s.reset (.ofField receiver field) ty).lines spell indent =
      ((s.reset (.ofField receiver field) ty).block indent).map (·.line spell)) ∧
    Reads (Guards s.table (.ofField receiver field) ty s.IsOwner) []
      ((s.reset (.ofField receiver field) ty).block indent) [] := by
  have he : Operand.ofField receiver field =
      { Operand.ofField receiver field with derefs := (Operand.ofField receiver field).derefs } :=
    rfl
  exact ⟨fun spell => Statement.lines_eq_block spell indent _,
    reads_resetWithin he .zero (depthLimit + 1) indent⟩

/-- A pointer type `Handle` with a method `Reset()`, and a pointer type `Slot` to it. -/
def pointerHandle : Surroundings :=
  ⟨.ofDeclarations [Sample.declare "T" (.struct []) [],
    Sample.declare "Handle" (.pointer (.named (Sample.ref "T"))) [Sample.reset],
    Sample.declare "Slot" (.pointer (.named (Sample.ref "Handle"))) [],
    Sample.declare "S" (.struct [Sample.field "F" (.named (Sample.ref "Slot"))]) []], []⟩

theorem reset_pointerHandle :
    pointerHandle.reset (.ofField "obj" "F") (.named (Sample.ref "Slot")) =
      .guarded ⟨"obj", "F", 0⟩ (.call ⟨"obj", "F", 1⟩) := by
  rfl

/-- The call on the `Handle` is guarded for the pointer to it only. -/
theorem handle_unguarded :
    ¬ Reads (Guards pointerHandle.table (.ofField "obj" "F") (.named (Sample.ref "Slot"))
        fun _ => False) []
      ((pointerHandle.reset (.ofField "obj" "F") (.named (Sample.ref "Slot"))).block 1) [] := by
  rw [reset_pointerHandle]
  rintro (_ | ⟨ha, -, _ | ⟨ha', hcall, -⟩⟩)
  cases ha
  cases ha'
  have hslot : pointerHandle.table.Behind (.named (Sample.ref "Slot")) 1
      (.named (Sample.ref "Handle")) := .succ .zero ⟨2, rfl⟩
  have h := hcall.call ⟨"obj", "F", 1⟩ _ (List.mem_singleton.2 rfl) hslot (.pointer ⟨2, rfl⟩)
  simp [CodeLine.behind, CodeLine.branch] at h

end Surroundings
end ResetMethods
