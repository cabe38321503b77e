import ResetMethods.Proofs.Source.Moves
import ResetMethods.Source.FileGrammar

/-!
# ResetMethods.Proofs.Source.Grammar

The rules of the grammar read from the front of the tokens.

* `Grammar.Advances`: each of the nested parts reads its first token and leaves an end of the
  tokens.
* `moves_typeExpr`, `moves_expression`, `moves_literalValue`, `moves_block`: so do the rules, if
  their parts do.
* `grammar_advances`: so do the parts at every depth.
* `moves_item`: so does each item of a file.

A lemma has the name of its rule. Where a rule may read nothing or may end in a line break that it
forgets, the relation in the lemma says so.
-/

namespace ResetMethods

open ResetMethods.Parser
open Text (closeBrace openBrace)

/-- Each nested part reads its first token and leaves an end of the tokens. -/
structure Grammar.Advances (g : Grammar) : Prop where
  type (lineEnds : Bool) : Moves Further (g.type lineEnds)
  expression (ctx : Context) : Moves Further (g.expression ctx)
  literalValue : Moves Further g.literalValue
  block : Moves Further g.block

variable {g : Grammar}

/-! ## Types -/

namespace TypeGrammar

theorem moves_typeElem (hg : g.Advances) (lineEnds : Bool) :
    Moves Further (typeElem g lineEnds) := by
  have htypes : Moves Further (separated (inLine lineEnds (symbol "|")) (g.type lineEnds)) :=
    .separated (hg.type _) (.seqRight (.inLine (moves_symbol "|")) (hg.type _))
  refine .bind moves_peek fun _ => .bind (S := Kept) htypes.withText fun _ => ?_
  split
  split <;> exact .done _

theorem moves_typeArgs (hg : g.Advances) : Moves Further (typeArgs g) :=
  .bind (moves_symbol "[") fun _ => .bind (moves_typeElem hg false).commaList fun _ =>
    .bind (moves_symbol "]") fun _ => .done _

theorem moves_typeName (hg : g.Advances) (lineEnds : Bool) :
    Moves Further (typeName g lineEnds) := by
  refine .bind (moves_ident _) fun _ =>
    .bind (R := Kept) (S := Kept) (.orElse ?_ (.done _)) fun _ =>
    .bind (S := Kept) (.perhaps (.inLine (moves_typeArgs hg).kept)) fun args? => ?_
  · exact .kept (.bind (.inLine (moves_symbol ".")) fun _ => .bind (moves_ident []) fun _ =>
      .done _)
  · cases args? <;> exact .done _

theorem moves_parameter (hg : g.Advances) : Moves Further (parameter g) := by
  refine .orElse ?_ (.orElse ?_ ?_)
  · exact .bind (moves_ident _).kept.perhaps fun _ => .bind (moves_symbol "...") fun _ =>
      .bind (hg.type false) fun _ => .done _
  · exact .bind (moves_ident _).commaSeparated fun _ => .bind (hg.type false) fun _ =>
      .bind (moves_lookingAt _) fun _ => .done _
  · exact .bind (hg.type false) fun _ => .done _

theorem moves_parameters (hg : g.Advances) : Moves Further (parameters g) :=
  .bind (moves_symbol "(") fun _ =>
    .bind (moves_parameter hg).commaSeparated.kept.perhaps fun _ =>
      .bind (moves_symbol ",").kept.perhaps fun _ => .bind (moves_symbol ")") fun _ => .done _

theorem moves_results (hg : g.Advances) (lineEnds : Bool) : Moves Kept (results g lineEnds) := by
  refine .bind (Moves.perhaps (.inLine (.kept ?_))) fun _ => .done _
  refine .bind (S := Further) (moves_atSymbol "(") fun _ => .ite ?_ ?_
  · exact .bind (moves_parameters hg) fun _ => .done _
  · exact .bind (hg.type _) fun _ => .done _

theorem moves_signature (hg : g.Advances) (lineEnds : Bool) :
    Moves Further (signature g lineEnds) :=
  .bind (moves_parameters hg) fun _ => .bind (moves_results hg _) fun _ => .done _

/-- The closing brace stands behind the line break that the last terminator may have been. -/
theorem moves_inBraces {α : Type} {p : Parser α} (hp : Moves Further p) :
    Moves Further (inBraces p) := by
  have hseparated : Moves Further (separated terminator p) :=
    hp.separated (moves_terminator.seqRight hp)
  have hitems : Moves Onward (separated terminator p >>= fun items =>
      perhaps terminator >>= fun _ => pure items) :=
    .bind hseparated fun _ => .bind moves_terminator.perhaps fun _ => .done _
  exact .bind (moves_symbol openBrace) fun _ => .bind hitems.perhaps fun _ =>
    .bind (moves_symbol closeBrace) fun _ => .done _

theorem moves_tag : Moves Kept tag := .perhaps (.inLine moves_stringLiteral.kept)

theorem moves_field (hg : g.Advances) : Moves Further (field g) := by
  refine .orElse ?_ (.orElse ?_ ?_)
  · exact .bind (moves_symbol "*") fun _ => .bind (moves_typeName hg true) fun _ =>
      .bind moves_tag fun _ => .done _
  · exact .bind (moves_typeName hg true) fun _ => .bind moves_tag fun _ =>
      .bind (moves_lookingAt _) fun _ => .done _
  · exact .bind (moves_ident []).commaSeparated fun _ => .bind (hg.type true) fun _ =>
      .bind moves_tag fun _ => .done _

theorem moves_interfaceElem (hg : g.Advances) : Moves Further (interfaceElem g) := by
  refine .orElse ?_ ?_
  · exact .bind (moves_ident _) fun _ => .bind (moves_lookingAt _) fun _ =>
      .bind (moves_signature hg true) fun _ => .done _
  · exact .bind (moves_typeElem hg true) fun _ => .done _

theorem moves_channelRest (hg : g.Advances) (lineEnds : Bool) :
    Moves Further (channelRest g lineEnds) :=
  .bind (Moves.many (.kept (.bind (moves_symbol "<-") fun _ => moves_word "chan"))) fun _ =>
    .bind (moves_symbol "<-").kept.perhaps fun _ => .bind (hg.type _) fun _ =>
      .ite (.done _) (.done _)

theorem moves_bracketType (hg : g.Advances) (lineEnds : Bool) :
    Moves Further (bracketType g lineEnds) := by
  refine .bind (moves_symbol "[") fun _ => .bind (S := Further) (moves_atSymbol "]") fun _ =>
    .ite ?_ ?_
  · exact .bind (moves_symbol "]") fun _ => .bind (hg.type _) fun _ => .done _
  · exact .bind (Moves.withText (hg.expression _)) fun _ =>
      .bind (moves_symbol "]") fun _ => .bind (hg.type _) fun _ => .done _

theorem moves_wordType (hg : g.Advances) (lineEnds : Bool) (w : String) :
    Moves Further (wordType g lineEnds w) := by
  unfold wordType
  split
  · exact .bind (moves_word _) fun _ => .bind (moves_inBraces (moves_field hg)) fun _ => .done _
  · exact .bind (moves_word _) fun _ => .bind (moves_inBraces (moves_interfaceElem hg)) fun _ =>
      .done _
  · exact .bind (moves_word _) fun _ => .bind (moves_symbol "[") fun _ => .bind (hg.type false)
      fun _ => .bind (moves_symbol "]") fun _ => .bind (hg.type _) fun _ => .done _
  · exact .bind (moves_word _) fun _ => moves_channelRest hg _
  · exact .bind (moves_word _) fun _ => .bind (moves_signature hg _) fun _ => .done _
  · exact moves_typeName hg _

theorem moves_typeExpr (hg : g.Advances) (lineEnds : Bool) :
    Moves Further (typeExpr g lineEnds) := by
  refine .bind (S := Further) moves_peek fun t => ?_
  split
  · exact moves_wordType hg _ _
  · exact .bind (moves_symbol _) fun _ => .bind (hg.type _) fun _ => .bind (moves_symbol _) fun _ =>
      .done _
  · exact .bind (moves_symbol _) fun _ => .bind (hg.type _) fun _ => .done _
  · exact moves_bracketType hg _
  · exact .bind (moves_symbol _) fun _ => .bind (moves_word _) fun _ => .bind (hg.type _) fun _ =>
      .done _
  · exact .bind (Moves.withText (.seqRight (moves_symbol _) (hg.type _))) fun _ => .done _
  · exact .failure

theorem moves_typeParams (hg : g.Advances) : Moves Further (typeParams g) := by
  have hgroup : Moves Further (commaSeparated (ident []) >>= fun names =>
      typeElem g false >>= fun _ => pure names) :=
    .bind (moves_ident []).commaSeparated fun _ => .bind (moves_typeElem hg _) fun _ => .done _
  exact .bind (moves_symbol "[") fun _ => .bind hgroup.commaList fun _ =>
    .bind (moves_symbol "]") fun _ => .done _

theorem moves_endRow : Moves Kept endRow := .bind moves_peek fun _ => .done _

theorem moves_typeSpec (hg : g.Advances) (trailing : Option Nat) :
    Moves Further (typeSpec g trailing) := by
  refine .bind (moves_identToken []) fun _ => .kept (.orElse ?_ (.orElse ?_ ?_))
  · exact .bind (moves_symbol "=") fun _ => .bind (hg.type true) fun _ => .done _
  · exact .bind (hg.type true) fun _ => .done _
  · exact .bind (moves_typeParams hg) fun _ => .bind (hg.type true) fun _ => .done _

theorem moves_commentBeforeSemicolon : Moves Kept commentBeforeSemicolon :=
  .bind moves_peek fun _ => .done _

theorem moves_elementEnd : Moves Onward elementEnd :=
  .bind moves_endRow fun _ => .bind moves_commentBeforeSemicolon fun _ =>
    .bind moves_terminator fun _ => .done _

theorem moves_typeSpecs (hg : g.Advances) (fuel : Nat) (trailing : Option Nat) :
    Moves Onward (typeSpecs g fuel trailing) := by
  induction fuel generalizing trailing with
  | zero => exact .pure []
  | succ fuel ih =>
    refine .bind (S := Onward) (moves_atSymbol ")") fun _ => .ite (.pure []) ?_
    exact .bind (moves_typeSpec hg _) fun _ => .bind moves_elementEnd fun _ =>
      .bind (ih _) fun _ => .done _

theorem moves_typeDecl (hg : g.Advances) (trailing : Option Nat) :
    Moves Further (typeDecl g trailing) := by
  refine .bind moves_peek fun _ => .bind (moves_word _) fun _ =>
    .bind (S := Kept) (moves_atSymbol "(") fun _ => .ite ?_ ?_
  · exact .kept (.bind (moves_symbol "(") fun _ => .bind moves_get fun _ =>
      .bind (moves_typeSpecs hg _ _) fun _ => .bind (moves_symbol ")") fun _ => .done _)
  · exact .kept (.bind (moves_typeSpec hg _) fun _ => .done _)

end TypeGrammar

/-! ## Expressions -/

namespace ExpressionGrammar

theorem moves_inner (hg : g.Advances) : Moves Further (inner g) := hg.expression _

theorem moves_arguments (hg : g.Advances) : Moves Further (arguments g) := by
  have hargument : Moves Further (inner g >>= fun _ =>
      perhaps (symbol "...") >>= fun _ => pure ()) :=
    .bind (moves_inner hg) fun _ => .bind (moves_symbol _).kept.perhaps fun _ => .done _
  exact .bind (moves_symbol "(") fun _ => .bind hargument.commaList.kept.perhaps fun _ =>
    moves_symbol ")"

theorem moves_typeFirstArguments (hg : g.Advances) : Moves Further (typeFirstArguments g) := by
  have hmore : Moves Further (symbol "," *> inner g) := (moves_symbol ",").seqRight (moves_inner hg)
  refine .bind (moves_symbol "(") fun _ => .bind (S := Further) (R := Kept) (.perhaps (.kept ?_))
    fun _ => moves_symbol ")"
  exact .bind (hg.type false) fun _ => .bind hmore.kept.many fun _ =>
    (moves_symbol ",").kept.perhaps

theorem moves_entry (hg : g.Advances) : Moves Further (entry g) := by
  refine .orElse ?_ ?_
  · exact .bind (moves_inner hg) fun _ => moves_lookingAt _
  · exact .bind (TypeGrammar.moves_typeElem hg _) fun _ => .done _

theorem moves_upperBounds (hg : g.Advances) : Moves Further (upperBounds g) := by
  have hmore : Moves Further (symbol ":" *> inner g) := (moves_symbol ":").seqRight (moves_inner hg)
  refine .bind (moves_symbol ":") fun _ => .bind (moves_inner hg).kept.perhaps fun _ =>
    .ite ?_ (moves_symbol "]")
  exact .bind hmore.kept.perhaps fun _ => moves_symbol "]"

theorem moves_brackets (hg : g.Advances) : Moves Further (brackets g) := by
  have hmore : Moves Further (symbol "," *> entry g) := (moves_symbol ",").seqRight (moves_entry hg)
  refine .bind (moves_symbol "[") fun _ => .bind (S := Further) (moves_atSymbol ":") fun _ =>
    .ite (moves_upperBounds hg) ?_
  refine .bind (moves_entry hg) fun _ => .bind (S := Further) (moves_atSymbol ":") fun _ =>
    .ite (moves_upperBounds hg) ?_
  exact .bind hmore.kept.many fun _ => .bind (moves_symbol ",").kept.perhaps fun _ =>
    moves_symbol "]"

theorem moves_literalElement (hg : g.Advances) : Moves Further (literalElement g) :=
  .bind (moves_atSymbol _) fun _ => .ite hg.literalValue (moves_inner hg)

theorem moves_literalValue (hg : g.Advances) : Moves Further (literalValue g) := by
  have hvalue : Moves Further (symbol ":" *> literalElement g) :=
    (moves_symbol ":").seqRight (moves_literalElement hg)
  have helement : Moves Further (literalElement g >>= fun _ =>
      perhaps (symbol ":" *> literalElement g)) :=
    .bind (moves_literalElement hg) fun _ => hvalue.kept.perhaps
  exact .bind (moves_symbol _) fun _ => .bind helement.commaSeparated.kept.perhaps fun _ =>
    .bind (moves_symbol ",").kept.perhaps fun _ => moves_symbol _

theorem moves_functionOperand (hg : g.Advances) : Moves Further (functionOperand g) := by
  refine .bind (moves_word _) fun _ => .bind (TypeGrammar.moves_signature hg _) fun _ =>
    .bind (S := Kept) (moves_atSymbol _) fun _ => .ite ?_ (.done _)
  exact .kept (.bind hg.block fun _ => .done _)

theorem moves_parenthesized (hg : g.Advances) : Moves Further (parenthesized g) := by
  refine .bind (S := Further) (moves_symbol "(") fun _ => .orElse ?_ ?_
  · exact .bind (moves_inner hg) fun _ => .bind (moves_symbol ")") fun _ => .done _
  · exact .bind (hg.type _) fun _ => .bind (moves_symbol ")") fun _ =>
      .bind (moves_arguments hg) fun _ => .done _

theorem moves_bracketOperand (hg : g.Advances) : Moves Further (bracketOperand g) := by
  refine .orElse ?_ ?_
  · exact .bind (moves_symbol "[") fun _ => .bind (moves_symbol "...") fun _ =>
      .bind (moves_symbol "]") fun _ => .bind (hg.type _) fun _ => .bind hg.literalValue fun _ =>
      .done _
  · exact .bind (hg.type _) fun _ => .done _

theorem moves_wordOperand (hg : g.Advances) (w : String) : Moves Further (wordOperand g w) := by
  refine .ite (moves_functionOperand hg) (.ite ?_ ?_)
  · exact .bind (hg.type _) fun _ => .done _
  · refine .bind (S := Kept) (moves_word w) fun _ => .ite (.done _) (.ite ?_ (.done _))
    exact .bind (moves_typeFirstArguments hg).kept.perhaps fun _ => .done _

theorem moves_operand (hg : g.Advances) : Moves Further (operand g) := by
  refine .bind (S := Further) moves_peek fun t => ?_
  split
  · exact moves_wordOperand hg _
  · exact moves_parenthesized hg
  · exact moves_bracketOperand hg
  · exact .bind (moves_satisfy _) fun _ => .done _
  · exact .bind (moves_satisfy _) fun _ => .done _
  · exact .failure

theorem moves_postfixPart (hg : g.Advances) (ctx : Context) (shape : Shape) :
    Moves Further (postfixPart g ctx shape) := by
  refine .bind (S := Further) moves_peek fun t => ?_
  split
  · refine .bind (S := Kept) (moves_symbol ".") fun _ =>
      .bind (S := Kept) (moves_atSymbol "(") fun _ => .ite ?_ ?_
    · exact .kept (.bind (moves_symbol "(") fun _ => .bind (hg.type _) fun _ =>
        .bind (moves_symbol ")") fun _ => .done _)
    · exact .kept (.bind (moves_ident []) fun _ => .done _)
  · exact .bind (moves_brackets hg) fun _ => .done _
  · exact .bind (moves_arguments hg) fun _ => .done _
  · exact .ite (.bind hg.literalValue fun _ => .done _) .failure
  · exact .failure

theorem moves_postfixParts (hg : g.Advances) (ctx : Context) (fuel : Nat) (shape : Shape) :
    Moves Kept (postfixParts g ctx fuel shape) := by
  induction fuel generalizing shape with
  | zero => exact .done _
  | succ fuel ih =>
    refine .bind (S := Kept) (Moves.perhaps (.inLine (moves_postfixPart hg ctx shape).kept))
      fun shape? => ?_
    cases shape? with
    | none => exact .done _
    | some shape' => exact ih shape'

theorem moves_unaryExpression (hg : g.Advances) (ctx : Context) :
    Moves Further (unaryExpression g ctx) :=
  .bind (moves_symbolOf _).kept.many fun _ => .bind (moves_operand hg) fun _ =>
    .bind moves_get fun _ => .bind (moves_postfixParts hg ctx _ _) fun _ => .ite .failure (.done _)

theorem moves_expression (hg : g.Advances) (ctx : Context) : Moves Further (expression g ctx) := by
  refine .bind (S := Kept) (moves_unaryExpression hg ctx) fun _ =>
    .bind (S := Kept) (Moves.many (.kept ?_)) fun _ => .done _
  exact .bind (.inLine (moves_symbolOf _)) fun _ => moves_unaryExpression hg ctx

theorem moves_expressionList (hg : g.Advances) (ctx : Context) :
    Moves Further (expressionList g ctx) := by
  have hlist : Moves Further (separated (inLine ctx.lineEnds (symbol ",")) (g.expression ctx)) :=
    .separated (hg.expression _) (.seqRight (.inLine (moves_symbol ",")) (hg.expression _))
  exact .bind hlist fun _ => .done _

end ExpressionGrammar

/-! ## Statements -/

namespace StatementGrammar

open ExpressionGrammar

theorem moves_grouped {α : Type} {p : Parser α} (hp : Moves Further p) :
    Moves Further (grouped p) := by
  have hitems : Moves Onward (many (p <* terminator)) :=
    .many (hp.seqLeft moves_terminator)
  refine .bind (S := Further) (moves_atSymbol "(") fun _ => .ite ?_ ?_
  · exact .bind (moves_symbol "(") fun _ => .bind (T := Further) hitems fun _ =>
      .bind (moves_symbol ")") fun _ => .done _
  · exact .bind hp fun _ => .done _

theorem moves_initializer (hg : g.Advances) : Moves Further (initializer g) :=
  .inLine (.bind (moves_symbol "=") fun _ => .bind (moves_expressionList hg _) fun _ => .done _)

theorem moves_varSpec (hg : g.Advances) : Moves Further (varSpec g) := by
  refine .bind (S := Kept) (moves_ident []).commaSeparated fun _ =>
    .bind (S := Kept) (moves_atSymbol "=") fun _ => .ite ?_ ?_
  · exact .kept (.bind (moves_symbol "=") fun _ => .bind (moves_expressionList hg _) fun _ =>
      .done _)
  · exact .kept (.bind (hg.type _) fun _ => .bind (moves_initializer hg).kept.perhaps fun _ =>
      .done _)

theorem moves_varDecl (hg : g.Advances) : Moves Further (varDecl g) :=
  .bind (moves_word _) fun _ => .bind (moves_grouped (moves_varSpec hg)) fun _ => .done _

theorem moves_constSpec (hg : g.Advances) : Moves Further (constSpec g) := by
  have htype : Moves Kept (perhaps (inLine true (g.type true))) :=
    .perhaps (.inLine (hg.type _).kept)
  refine .bind (S := Kept) (moves_ident []).commaSeparated fun _ =>
    .bind (S := Kept) (.perhaps (.kept ?_)) fun _ => .done _
  exact .bind htype fun _ => moves_initializer hg

theorem moves_constDecl (hg : g.Advances) : Moves Further (constDecl g) :=
  .bind (moves_word _) fun _ => .bind (moves_grouped (moves_constSpec hg)) fun _ => .done _

theorem moves_simpleTail (hg : g.Advances) (ctx : Context) (count : Nat) :
    Moves Kept (simpleTail g ctx count) := by
  refine .orElse (.kept ?_) (.ite (.orElse (.kept ?_) (.orElse (.kept ?_) (.pure _))) .failure)
  · exact .bind (.inLine (moves_symbolOf _)) fun _ => .bind (moves_expressionList hg _) fun _ =>
      .done _
  · exact .bind (.inLine (moves_symbol _)) fun _ => .bind (hg.expression _) fun _ => .done _
  · exact .bind (.inLine (moves_symbolOf _)) fun _ => .done _

theorem moves_simple (hg : g.Advances) (ctx : Context) : Moves Further (simple g ctx) :=
  .bind (moves_expressionList hg _) fun _ => moves_simpleTail hg _ _

theorem moves_condition (hg : g.Advances) : Moves Further (condition g) := hg.expression _

theorem moves_conditionHeader (hg : g.Advances) : Moves Further (conditionHeader g) := by
  refine .bind (S := Kept) (moves_simple hg _) fun _ => .bind (S := Kept) (moves_atSymbol ";")
    fun _ => .ite (.kept ?_) (.ite (.done _) .failure)
  exact .bind (moves_symbol ";") fun _ => moves_condition hg

theorem moves_ifStatement (hg : g.Advances) : Moves Further (ifStatement g) := by
  have hbranch : Moves Further (word "if" >>= fun _ => conditionHeader g >>= fun _ => g.block) :=
    .bind (moves_word _) fun _ => .bind (moves_conditionHeader hg) fun _ => hg.block
  have helse : Moves Further (inLine true (word "else")) := .inLine (moves_word _)
  exact .bind hbranch fun _ => .bind (helse.seqRight hbranch).kept.many fun _ =>
    .bind (helse.seqRight hg.block).kept.perhaps fun _ => .done _

theorem moves_forClauses (hg : g.Advances) : Moves Further (forClauses g) :=
  .bind (moves_symbol ";") fun _ => .bind (moves_condition hg).kept.perhaps fun _ =>
    .bind (moves_symbol ";") fun _ => .bind (moves_simple hg _).kept.perhaps fun _ => .done _

theorem moves_rangeHeader (hg : g.Advances) : Moves Further (rangeHeader g) := by
  refine .bind (S := Further) (R := Kept) (.perhaps (.kept ?_)) fun _ =>
    .bind (moves_word _) fun _ => moves_condition hg
  exact .bind (moves_expressionList hg _) fun _ => moves_symbolOf _

theorem moves_forHeader (hg : g.Advances) : Moves Kept (forHeader g) := by
  refine .bind (S := Kept) (moves_atSymbol _) fun _ => .ite (.done _) ?_
  refine .bind (S := Kept) (moves_atSymbol ";") fun _ => .ite (moves_forClauses hg).kept ?_
  refine .orElse (moves_rangeHeader hg).kept ?_
  exact .bind (S := Kept) (moves_simple hg _).kept fun _ => .bind (S := Kept) (moves_atSymbol ";")
    fun _ => .ite (moves_forClauses hg).kept (.ite (.done _) .failure)

theorem moves_switchHeader (hg : g.Advances) : Moves Kept (switchHeader g) := by
  refine .bind (S := Kept) (moves_atSymbol _) fun _ => .ite (.done _) ?_
  refine .bind (S := Kept) (moves_simple hg _).kept fun _ => .bind (S := Kept) (moves_atSymbol ";")
    fun _ => .ite (.kept ?_) (.done _)
  exact .bind (moves_symbol ";") fun _ => .bind (moves_simple hg _).kept.perhaps fun _ => .done _

theorem moves_label : Moves Further label :=
  .bind (moves_ident _) fun _ => moves_symbol _

theorem moves_returnStatement (hg : g.Advances) : Moves Further (returnStatement g) :=
  .bind (moves_word _) fun _ =>
    .bind (Moves.perhaps (.inLine (moves_expressionList hg _).kept)) fun _ => .done _

theorem moves_jump (w : String) : Moves Further (jump w) :=
  .bind (moves_word _) fun _ => .bind (Moves.perhaps (.inLine (moves_ident []).kept)) fun _ =>
    .done _

theorem moves_callStatement (hg : g.Advances) (w : String) : Moves Further (callStatement g w) :=
  .bind (moves_word _) fun _ => hg.expression _

theorem moves_communication (hg : g.Advances) : Moves Further (communication g) := by
  have hsend : Moves Further (symbol "<-" *> g.expression .nested) :=
    (moves_symbol _).seqRight (hg.expression _)
  refine .bind (S := Kept) (moves_expressionList hg _) fun _ =>
    .bind (S := Kept) (moves_symbolOf _).kept.perhaps fun _ => .ite (hg.expression _).kept ?_
  exact .ite (.bind hsend.kept.perhaps fun _ => .done _) .failure

theorem moves_alternatives (hg : g.Advances) : Moves Further (alternatives g) := by
  refine .orElse ?_ ?_
  · exact .bind (moves_expressionList hg _) fun _ => moves_lookingAt _
  · exact .bind (hg.type _).commaSeparated fun _ => .done _

theorem moves_statementList {p : Parser Unit} (hp : Moves Further p) :
    Moves Onward (statementList p) := by
  have hlist : Moves Further (separated terminator p) := hp.separated (moves_terminator.seqRight hp)
  have hlast : Moves Onward (terminator *> perhaps label) :=
    moves_terminator.seqRight moves_label.kept.perhaps
  refine .orElse ?_ moves_label.kept.onward
  exact .bind hlist fun _ => .bind hlast.perhaps fun _ => .done _

theorem moves_clauses {head p : Parser Unit} (hhead : Moves Further head) (hp : Moves Further p) :
    Moves Further (clauses head p) := by
  have hcase : Moves Further (word "case" *> head <|> word "default") :=
    .orElse ((moves_word _).seqRight hhead) (moves_word _)
  have hclause : Moves Onward ((word "case" *> head <|> word "default") >>= fun _ =>
      symbol ":" >>= fun _ => perhaps (statementList p)) :=
    .bind hcase fun _ => .bind (moves_symbol ":") fun _ => (moves_statementList hp).perhaps
  exact .bind (moves_symbol _) fun _ => .bind hclause.many fun _ => moves_symbol _

theorem moves_wordStatement (hg : g.Advances) {p : Parser Unit} (hp : Moves Further p)
    (w : String) : Moves Further (wordStatement g p w) := by
  unfold wordStatement
  split
  · exact .bind (moves_varDecl hg) fun _ => .done _
  · exact .bind (moves_constDecl hg) fun _ => .done _
  · exact .bind (TypeGrammar.moves_typeDecl hg none) fun _ => .done _
  · exact moves_returnStatement hg
  · exact moves_callStatement hg _
  · exact moves_callStatement hg _
  · exact moves_ifStatement hg
  · exact .bind (moves_word _) fun _ => .bind (moves_forHeader hg) fun _ => hg.block
  · exact .bind (moves_word _) fun _ => .bind (moves_switchHeader hg) fun _ =>
      moves_clauses (moves_alternatives hg) hp
  · exact .bind (moves_word _) fun _ => moves_clauses (moves_communication hg) hp
  · exact moves_word _
  · exact moves_jump _
  · exact moves_jump _
  · exact .bind (moves_word _) fun _ => .bind (moves_ident []) fun _ => .done _
  · exact .failure
  · exact .failure
  · exact .bind (moves_simple hg _) fun _ => .done _

theorem moves_unlabeled (hg : g.Advances) {p : Parser Unit} (hp : Moves Further p) :
    Moves Further (unlabeled g p) := by
  refine .bind (S := Further) moves_peek fun t => ?_
  split
  · exact moves_wordStatement hg hp _
  · exact hg.block
  · exact moves_symbol _
  · exact .bind (moves_simple hg _) fun _ => .done _

theorem moves_statementWithin (hg : g.Advances) (fuel : Nat) :
    Moves Further (statementWithin g fuel) := by
  induction fuel with
  | zero => exact .failure
  | succ fuel ih => exact .bind moves_label.kept.many fun _ => moves_unlabeled hg ih

theorem moves_statement (hg : g.Advances) : Moves Further (statement g) :=
  fun ts _ _ h => moves_statementWithin hg ts.length h

theorem moves_block (hg : g.Advances) : Moves Further (block g) :=
  .bind (moves_symbol _) fun _ =>
    .bind (moves_statementList (moves_statement hg)).perhaps fun _ => moves_symbol _

end StatementGrammar

/-! ## Files -/

theorem grammar_advances (n : Nat) : (grammar n).Advances := by
  induction n with
  | zero => exact ⟨fun _ => .failure, fun _ => .failure, .failure, .failure⟩
  | succ n ih =>
    exact
      { type := fun lineEnds _ _ _ h => TypeGrammar.moves_typeExpr ih lineEnds h
        expression := fun ctx _ _ _ h => ExpressionGrammar.moves_expression ih ctx h
        literalValue := fun _ _ _ h => ExpressionGrammar.moves_literalValue ih h
        block := fun _ _ _ h => StatementGrammar.moves_block ih h }

namespace FileGrammar

theorem moves_packageClause : Moves Further packageClause :=
  .bind (moves_word _) fun _ => .bind (moves_ident []) fun _ => .done _

theorem moves_importSpec : Moves Further importSpec := by
  have hname : Moves Further importName :=
    .orElse (.bind (moves_symbol _) fun _ => .done _) (moves_ident [])
  exact .bind hname.kept.perhaps fun _ => .bind moves_stringLiteral fun _ => .done _

theorem moves_importDecl : Moves Further importDecl := by
  have hspecs : Moves Further (separated terminator importSpec) :=
    moves_importSpec.separated (moves_terminator.seqRight moves_importSpec)
  refine .bind (moves_word _) fun _ => .bind (S := Further) (moves_atSymbol _) fun _ => .ite ?_ ?_
  · exact .bind (moves_symbol "(") fun _ => .bind (T := Further) hspecs.kept.perhaps fun _ =>
      .bind (T := Further) moves_terminator.perhaps fun _ => .bind (moves_symbol ")") fun _ =>
      .done _
  · exact .bind moves_importSpec fun _ => .done _

theorem moves_functionRest (hg : g.Advances) : Moves Further (functionRest g) :=
  .bind (TypeGrammar.moves_signature hg _) fun _ =>
    .bind (Moves.perhaps (.inLine hg.block.kept)) fun _ => .done _

theorem moves_functionDecl (hg : g.Advances) : Moves Further (functionDecl g) := by
  refine .bind (moves_word _) fun _ => .bind (S := Further) (moves_atSymbol _) fun _ => .ite ?_ ?_
  · exact .bind (TypeGrammar.moves_parameters hg) fun _ => .bind (moves_ident []) fun _ =>
      .bind (moves_functionRest hg) fun _ => .done _
  · exact .bind (moves_ident []) fun _ =>
      .bind (TypeGrammar.moves_typeParams hg).kept.perhaps fun _ =>
      .bind (moves_functionRest hg) fun _ => .done _

theorem moves_statement (hg : g.Advances) : Moves Further (statement g) :=
  .bind (StatementGrammar.moves_statement hg) fun _ => .done _

theorem moves_item (hg : g.Advances) (trailing : Option Nat) : Moves Further (item g trailing) := by
  refine .bind (S := Further) moves_peek fun t => ?_
  split
  · exact moves_packageClause
  · exact moves_importDecl
  · exact .orElse (moves_functionDecl hg) (moves_statement hg)
  · exact .bind (TypeGrammar.moves_typeDecl hg _) fun _ => .done _
  · exact .bind (StatementGrammar.moves_varDecl hg) fun _ => .done _
  · exact .bind (StatementGrammar.moves_constDecl hg) fun _ => .done _
  · exact moves_statement hg

end FileGrammar
end ResetMethods
