import ResetMethods.Proofs.Layout.Settled
import ResetMethods.Proofs.Layout.Types
import ResetMethods.Reset.Synthesis

/-!
# ResetMethods.Proofs.Layout.Methods

The lines of a `Reset()` method are laid out already.

* `Operand.Ok`: receiver and field are identifiers. An operand may then stand anywhere in a line.
* `Statement.settled`: the lines of a statement at the depth of the open delimiters.
* `ResetMethod.block`: the lines of a whole method.

All statements hold for any spelling of types that changes nothing for the scanner.
-/

namespace ResetMethods

open Layout
open Text (closeBrace openBrace)

theorem IsWord.starts {name : String} (h : IsWord name) : Starts name.toList := by
  obtain ⟨c, cs, hc⟩ := List.exists_cons_of_ne_nil h.ne_nil
  have hw : isWordChar c = true := h.all c (by simp [hc])
  have hp := isPlain_iff.1 (isPlain_of_isWordChar hw)
  refine ⟨c, cs, hc, not_isBlank_of_isWordChar hw, ?_⟩
  rw [Bool.eq_false_iff]
  intro hclose
  simp only [isCloser, Bool.or_eq_true, beq_iff_eq] at hclose
  obtain (rfl | rfl) | rfl := hclose <;> exact absurd hp.2.2.2.2.2.1 (by decide)

theorem IsWord.ends {name : String} (h : IsWord name) : Ends name.toList := by
  have hw := h.all _ (List.getLast_mem h.ne_nil)
  exact ⟨_, _, (List.dropLast_concat_getLast h.ne_nil).symm, not_isBlank_of_isWordChar hw⟩

/-! ## Operands -/

namespace Operand

/-- Receiver and field are identifiers. -/
structure Ok (e : Operand) : Prop where
  receiver : IsWord e.receiver
  field : IsWord e.field

variable {e : Operand}

theorem Ok.target (h : e.Ok) : e.target.Ok := ⟨h.receiver, h.field⟩

theorem neutral_stars (n : Nat) : Neutral (stars n).toList := by
  rw [stars, String.toList_ofList]
  refine neutral_of_plain fun c hc => ?_
  rw [List.eq_of_mem_replicate hc]
  decide

theorem Ok.neutral_selector (h : e.Ok) : Neutral e.selector.toList := by
  have hdot : Neutral ".".toList := neutral_literal rfl
  rw [selector]
  exact (h.receiver.neutral.concat hdot).concat h.field.neutral

theorem Ok.starts_selector (h : e.Ok) : Starts e.selector.toList := by
  rw [selector]
  exact (h.receiver.starts.concat _).concat _

theorem Ok.neutral_value (h : e.Ok) : Neutral e.value.toList := by
  rw [value]
  exact (neutral_stars e.derefs).concat h.neutral_selector

theorem Ok.starts_value (h : e.Ok) : Starts e.value.toList := by
  rw [value, String.toList_append, stars, String.toList_ofList]
  cases e.derefs with
  | zero => exact h.starts_selector
  | succ n => exact ⟨'*', _, rfl, by decide, by decide⟩

theorem Ok.neutral_primary (h : e.Ok) : Neutral e.primary.toList := by
  unfold primary
  split
  · exact h.neutral_selector
  · have he := h.neutral_value.bounded.enclosed (c := ')') rfl
    simpa using he

theorem Ok.starts_primary (h : e.Ok) : Starts e.primary.toList := by
  unfold primary
  split
  · exact h.starts_selector
  · have hparen : Starts "(".toList := starts_literal rfl
    exact (hparen.concat _).concat _

theorem Ok.neutral_address (h : e.Ok) : Neutral e.address.toList := by
  unfold address
  split
  · exact Neutral.concat (neutral_literal rfl) h.neutral_selector
  · exact (neutral_stars _).concat h.neutral_selector

end Operand

/-! ## Values -/

variable {spell : Ty → String}

theorem BasicKind.neutral_zeroLiteral (kind : BasicKind) : Neutral kind.zeroLiteral.toList := by
  by_cases hs : kind = .string
  · rw [hs]
    exact Quotable.nil.neutral (.inl rfl)
  · cases kind <;> first | exact absurd rfl hs | exact neutral_literal rfl

theorem BasicKind.ends_zeroLiteral (kind : BasicKind) : Ends kind.zeroLiteral.toList := by
  cases kind <;> exact ends_literal rfl

/-- A new variable of a type, as an operand. -/
theorem neutral_new {text : String} (h : Neutral text.toList) :
    Neutral ("*new(" ++ text ++ ")").toList := by
  have hnew : Neutral "*new".toList := neutral_literal rfl
  have hn := hnew.append (h.bounded.enclosed (c := ')') rfl)
  simpa using hn

theorem ends_paren (text : String) : Ends (text ++ ")").toList := by
  have hparen : Ends ")".toList := ends_literal rfl
  exact hparen.concat _

namespace Value

variable {e : Operand} {value : Value}

theorem neutral_spell (he : e.Ok)
    (ht : ∀ ty ∈ (Statement.assign e value).types, Neutral (spell ty).toList) :
    Neutral (value.spell spell e).toList := by
  cases value with
  | zero kind => exact kind.neutral_zeroLiteral
  | null =>
    rw [Value.spell]
    exact neutral_literal rfl
  | emptied =>
    have hcut : Neutral "[:0]".toList := neutral_literal rfl
    rw [Value.spell]
    exact he.neutral_primary.concat hcut
  | composite type =>
    have hbraces : Neutral "{}".toList := neutral_literal rfl
    rw [Value.spell]
    exact (ht type List.mem_cons_self).concat hbraces
  | blank type => exact neutral_new (ht type List.mem_cons_self)

theorem ends_spell (e : Operand) (value : Value) : Ends (value.spell spell e).toList := by
  cases value with
  | zero kind => exact kind.ends_zeroLiteral
  | null =>
    rw [Value.spell]
    exact ends_literal rfl
  | emptied =>
    have hcut : Ends "[:0]".toList := ends_literal rfl
    rw [Value.spell]
    exact hcut.concat _
  | composite type =>
    have hbraces : Ends "{}".toList := ends_literal rfl
    rw [Value.spell]
    exact hbraces.concat _
  | blank type => exact ends_paren _

end Value

/-! ## Conditions -/

/-- What a type assertion puts before its opening brace. -/
def assertionFront (subject : String) : List Char :=
  "if r, ok := ".toList ++ subject.toList ++ ".(interface{ Reset() }); ok ".toList

theorem assertion_toList (subject : String) :
    (assertion subject).toList = assertionFront subject ++ ['{'] := by
  rw [assertion, String.toList_append, String.toList_append, String.toList_append]
  rfl

theorem neutral_assertionFront {subject : String} (h : Neutral subject.toList) :
    Neutral (assertionFront subject) := by
  have hif : Neutral "if r, ok := ".toList := neutral_literal rfl
  have hok : Neutral ".(interface{ Reset() }); ok ".toList := neutral_literal rfl
  exact (hif.append h).append hok

theorem neutral_any {subject : String} (h : Neutral subject.toList) :
    Neutral ("any(" ++ subject ++ ")").toList := by
  have hany : Neutral "any".toList := neutral_literal rfl
  have hn := hany.append (h.bounded.enclosed (c := ')') rfl)
  simpa using hn

section Lines

variable {stack : List Char} {k : Nat}

theorem steady_assertion (hk : stack.length = k) {subject : String} (h : Neutral subject.toList) :
    Steady stack ⟨k, assertion subject⟩ ('{' :: stack) := by
  have hif : Starts "if r, ok := ".toList := starts_literal rfl
  have hs : Starts (assertionFront subject) := (hif.append _).append _
  exact .opening hk (assertion_toList subject) (neutral_assertionFront h) hs rfl

theorem steady_else_assertion (hk : stack.length = k) {subject : String}
    (h : Neutral subject.toList) :
    Steady ('{' :: stack) ⟨k, closeBrace ++ " else " ++ assertion subject⟩ ('{' :: stack) := by
  have helse : Neutral "else ".toList := neutral_literal rfl
  have ht : (closeBrace ++ " else " ++ assertion subject).toList =
      '}' :: ' ' :: ("else ".toList ++ assertionFront subject) ++ ['{'] := by
    rw [String.toList_append, assertion_toList]
    rfl
  exact .branch hk ht (helse.append (neutral_assertionFront h))

theorem steady_else (hk : stack.length = k) :
    Steady ('{' :: stack) ⟨k, closeBrace ++ " else " ++ openBrace⟩ ('{' :: stack) := by
  have helse : Neutral "else ".toList := neutral_literal rfl
  exact .branch hk rfl helse

theorem steady_call (hk : stack.length = k) : Steady stack ⟨k, "r.Reset()"⟩ stack := by
  have hn : Neutral "r.Reset()".toList := neutral_literal rfl
  exact .code hk hn (starts_literal rfl) (ends_literal rfl)

theorem steady_brace (hk : stack.length = k) : Steady ('{' :: stack) ⟨k, closeBrace⟩ stack :=
  .closing hk rfl rfl

theorem steady_if (hk : stack.length = k) {subject test : String}
    (h : Neutral subject.toList) (ht : Neutral test.toList) :
    Steady stack ⟨k, "if " ++ subject ++ test ++ openBrace⟩ ('{' :: stack) := by
  have hif : Neutral "if ".toList := neutral_literal rfl
  have hs : Starts "if ".toList := starts_literal rfl
  refine .opening hk ?_ ((hif.append h).append ht) ((hs.append _).append _) rfl
  rw [String.toList_append, String.toList_append, String.toList_append]
  rfl

end Lines

/-! ## Statements -/

namespace Statement

/-- The operands that the text of a statement names. -/
def operands : Statement → List Operand
  | .assign e _ | .clear e | .call e | .callIfAble e | .probe e _ => [e]
  | .guarded e body => e :: body.operands

variable {stack : List Char} {k : Nat} {rest : List Line}

theorem steady_assign {e : Operand} {value : String} (hk : stack.length = k) (he : e.Ok)
    (hn : Neutral value.toList) (hv : Ends value.toList) :
    Steady stack ⟨k, e.value ++ " = " ++ value⟩ stack := by
  have heq : Neutral " = ".toList := neutral_literal rfl
  refine .code hk ?_ ?_ ?_
  · exact (he.neutral_value.concat heq).concat hn
  · exact (he.starts_value.concat _).concat _
  · exact hv.concat _

theorem assign_new_eq (front text : String) :
    front ++ " = " ++ ("*new(" ++ text ++ ")") = front ++ " = *new(" ++ text ++ ")" := by
  rw [← String.toList_inj]
  simp

theorem steady_clear {e : Operand} (hk : stack.length = k) (he : e.Ok) :
    Steady stack ⟨k, "clear(" ++ e.value ++ ")"⟩ stack := by
  have hclear : Neutral "clear".toList := neutral_literal rfl
  have hn := hclear.append (he.neutral_value.bounded.enclosed (c := ')') rfl)
  have hs : Starts ("clear(" ++ e.value ++ ")").toList := by
    have hfront : Starts "clear(".toList := starts_literal rfl
    exact (hfront.concat _).concat _
  exact .code hk (by simpa using hn) hs (ends_paren _)

theorem steady_reset {e : Operand} (hk : stack.length = k) (he : e.Ok) :
    Steady stack ⟨k, e.primary ++ ".Reset()"⟩ stack := by
  have hcall : Neutral ".Reset()".toList := neutral_literal rfl
  have hends : Ends ".Reset()".toList := ends_literal rfl
  refine .code hk ?_ ?_ ?_
  · exact he.neutral_primary.concat hcall
  · exact he.starts_primary.concat _
  · exact hends.concat _

/-- The lines of a statement are laid out already, at the depth of the open delimiters. -/
theorem settled {st : Statement} (ho : ∀ e ∈ st.operands, e.Ok)
    (ht : ∀ ty ∈ st.types, Neutral (spell ty).toList) (hk : stack.length = k)
    (hrest : ∀ previous, Settled stack previous rest) (previous : Option (List Char)) :
    Settled stack previous (st.lines spell k ++ rest) := by
  induction st generalizing stack k rest previous with
  | assign e value =>
    have he := ho e List.mem_cons_self
    exact .cons (steady_assign hk he (Value.neutral_spell he ht) (value.ends_spell e)) (hrest _)
  | clear e => exact .cons (steady_clear hk (ho e List.mem_cons_self)) (hrest _)
  | call e => exact .cons (steady_reset hk (ho e List.mem_cons_self)) (hrest _)
  | guarded e body ih =>
    obtain ⟨he, ho⟩ := List.forall_mem_cons.1 ho
    have hnil : Neutral " != nil ".toList := neutral_literal rfl
    have hif : Steady stack ⟨k, "if " ++ e.value ++ " != nil " ++ openBrace⟩ ('{' :: stack) :=
      steady_if hk he.neutral_value hnil
    have hclose : ∀ previous, Settled ('{' :: stack) previous (⟨k, closeBrace⟩ :: rest) := fun _ =>
      .cons (steady_brace hk) (hrest _)
    have hbody := ih ho ht (by rw [List.length_cons, hk]) hclose
    rw [lines, List.cons_append, List.cons_append, List.append_assoc, List.singleton_append]
    exact .cons hif (hbody _)
  | callIfAble e =>
    have he := ho e List.mem_cons_self
    have hk' : ('{' :: stack).length = k + 1 := by rw [List.length_cons, hk]
    refine .cons (steady_assertion hk he.neutral_primary) ?_
    refine .cons (steady_call hk') ?_
    exact .cons (steady_brace hk) (hrest _)
  | probe e type =>
    have he := ho e List.mem_cons_self
    have hk' : ('{' :: stack).length = k + 1 := by rw [List.length_cons, hk]
    have hnew := neutral_new (ht type List.mem_cons_self)
    have hassign := steady_assign hk' he hnew (ends_paren _)
    rw [assign_new_eq] at hassign
    refine .cons (steady_assertion hk (neutral_any he.neutral_address)) ?_
    refine .cons (steady_call hk') ?_
    refine .cons (steady_else_assertion hk (neutral_any he.neutral_value)) ?_
    refine .cons (steady_call hk') ?_
    refine .cons (steady_else hk) ?_
    exact .cons hassign (.cons (steady_brace hk) (hrest _))

/-- The first line of a statement closes nothing. -/
theorem leads {st : Statement} (ho : ∀ e ∈ st.operands, e.Ok) (k : Nat) :
    Leads (st.lines spell k) := by
  have hif : Starts "if ".toList := starts_literal rfl
  have hassert : ∀ subject, Starts (assertion subject).toList := by
    intro subject
    have h : Starts "if r, ok := ".toList := starts_literal rfl
    rw [assertion_toList]
    exact ((h.append _).append _).append _
  cases st with
  | assign e value =>
    refine ⟨_, _, rfl, ?_⟩
    exact ((ho e List.mem_cons_self).starts_value.concat _).concat _
  | clear e =>
    have hclear : Starts "clear(".toList := starts_literal rfl
    refine ⟨_, _, rfl, ?_⟩
    exact (hclear.concat _).concat _
  | call e =>
    refine ⟨_, _, rfl, ?_⟩
    exact (ho e List.mem_cons_self).starts_primary.concat _
  | guarded e body =>
    refine ⟨_, _, rfl, ?_⟩
    exact ((hif.concat _).concat _).concat _
  | callIfAble e => exact ⟨_, _, rfl, hassert _⟩
  | probe e type => exact ⟨_, _, rfl, hassert _⟩

theorem settled_all {body : List Statement} (ho : ∀ st ∈ body, ∀ e ∈ st.operands, e.Ok)
    (ht : ∀ st ∈ body, ∀ ty ∈ st.types, Neutral (spell ty).toList) (hk : stack.length = k)
    (hrest : ∀ previous, Settled stack previous rest) (previous : Option (List Char)) :
    Settled stack previous (body.flatMap (·.lines spell k) ++ rest) := by
  induction body generalizing previous with
  | nil => exact hrest previous
  | cons st body ih =>
    obtain ⟨host, ho⟩ := List.forall_mem_cons.1 ho
    obtain ⟨htst, ht⟩ := List.forall_mem_cons.1 ht
    rw [List.flatMap_cons, List.append_assoc]
    exact settled host htst hk (fun previous => ih ho ht previous) previous

end Statement

/-! ## Methods -/

namespace ResetMethod

/-- The names in the text of a method are identifiers. -/
structure Ok (m : ResetMethod) : Prop where
  receiver : IsWord m.receiver
  typeName : IsWord m.typeName
  operands : ∀ st ∈ m.body, ∀ e ∈ st.operands, e.Ok

variable {m : ResetMethod}

theorem Ok.steady_header (h : m.Ok) :
    Steady [] ⟨0, "func (" ++ m.receiver ++ " *" ++ m.typeName ++ ") Reset() " ++ openBrace⟩
      ['{'] := by
  have hfunc : Neutral "func ".toList := neutral_literal rfl
  have hstar : Neutral " *".toList := neutral_literal rfl
  have hreset : Neutral " Reset() ".toList := neutral_literal rfl
  have hstarts : Starts "func ".toList := starts_literal rfl
  have hinner := (h.receiver.neutral.append hstar).append h.typeName.neutral
  have hparens := hinner.bounded.enclosed (c := ')') rfl
  refine .opening rfl ?_ ((hfunc.append hparens).append hreset) ((hstarts.append _).append _) rfl
  simp

/-- The lines of a method are laid out already. -/
theorem block (h : m.Ok) (ht : ∀ st ∈ m.body, ∀ ty ∈ st.types, Neutral (spell ty).toList) :
    Block (m.lines spell) := by
  have hleads : Leads (m.lines spell) := by
    have hfunc : Starts "func (".toList := starts_literal rfl
    refine ⟨_, _, rfl, ?_⟩
    exact ((((hfunc.concat _).concat _).concat _).concat _).concat _
  refine ⟨hleads, fun rest hrest previous => ?_⟩
  have hnil : Neutral " == nil ".toList := neutral_literal rfl
  have hguard : Steady ['{'] ⟨1, "if " ++ m.receiver ++ " == nil " ++ openBrace⟩ ['{', '{'] :=
    steady_if rfl h.receiver.neutral hnil
  have hreturn : Steady ['{', '{'] ⟨2, "return"⟩ ['{', '{'] :=
    .code rfl (neutral_literal rfl) (starts_literal rfl) (ends_literal rfl)
  have hclose : Steady ['{', '{'] ⟨1, closeBrace⟩ ['{'] := steady_brace rfl
  have hend : ∀ previous, Settled ['{'] previous (⟨0, closeBrace⟩ :: rest) := fun _ =>
    .cons (steady_brace rfl) (hrest _ ⟨_, rfl, by decide⟩)
  have hquiet : Quiet (some (chars ⟨1, closeBrace⟩)) := ⟨_, rfl, by decide⟩
  simp only [lines, List.append_assoc, List.cons_append, List.nil_append]
  refine .cons h.steady_header (.cons hguard (.cons hreturn (.cons hclose ?_)))
  cases hb : m.body with
  | nil => exact hend _
  | cons st body =>
    rw [hb] at ht
    have ho : ∀ st' ∈ st :: body, ∀ e ∈ st'.operands, e.Ok := hb ▸ h.operands
    have hbody := Statement.settled_all ho ht rfl hend (some (chars ⟨1, closeBrace⟩))
    have hleads : Leads ((st :: body).flatMap (·.lines spell 1) ++ ⟨0, closeBrace⟩ :: rest) := by
      rw [List.flatMap_cons]
      exact ((Statement.leads (ho st List.mem_cons_self) 1).append _).append _
    exact .blank hquiet hleads hbody

end ResetMethod
end ResetMethods
