import ResetMethods.Reset.Statement

/-!
# ResetMethods.Proofs.Imports.Pieces

Printed text as a list of pieces, so that a qualifier can be told from other text.

* `Piece`: a name with the qualifier written before it and the package that it is a name of, or any
  other text.
* `Ty.pieces`, `Statement.pieces`, `ResetMethod.pieces`: what the printer writes, piece by piece.
* `Writes`: pieces against a text and the packages it names. Pieces put side by side, and lists of
  pieces with separators, keep it.
* `Ty.writes`, `ResetMethod.writes`: the pieces of a type are its text, and the packages that they
  name are those that `packages` lists; so are the pieces of a method.

The pieces of a type depend on the qualifiers, since a channel of both directions looks at the text
of its elements.
-/

namespace ResetMethods

open Text (closeBrace join openBrace)

/-- A piece of printed text. -/
inductive Piece where
  /-- Text that stands for no package. -/
  | plain (text : String)
  /-- A name of a package, with the qualifier before it. -/
  | reference (package : PackageRef) (qualifier name : String)

namespace Piece

def text : Piece → String
  | .plain text => text
  | .reference _ qualifier name => qualifier ++ name

def texts : List Piece → String
  | [] => ""
  | p :: ps => p.text ++ texts ps

/-- The packages whose names stand in some pieces. -/
def packages : List Piece → List PackageRef
  | [] => []
  | .plain _ :: ps => packages ps
  | .reference package _ _ :: ps => package :: packages ps

/-- Lists of pieces with a separator between neighbours. -/
def join (sep : String) : List (List Piece) → List Piece
  | [] => []
  | [ps] => ps
  | ps :: qs :: rest => ps ++ .plain sep :: join sep (qs :: rest)

def bracketed : List (List Piece) → List Piece
  | [] => []
  | items => .plain "[" :: join ", " items ++ [.plain "]"]

def results : List (List Piece) → List Piece
  | [] => []
  | [single] => .plain " " :: single
  | items => .plain " (" :: join ", " items ++ [.plain ")"]

def members (keyword : String) : List (List Piece) → List Piece
  | [] => [.plain (keyword ++ "{}")]
  | items => .plain (keyword ++ openBrace ++ " ") :: join "; " items ++ [.plain (" " ++ closeBrace)]

def channel (direction : Direction) (elem : List Piece) : List Piece :=
  match direction with
  | .send => .plain "chan<- " :: elem
  | .receive => .plain "<-chan " :: elem
  | .both =>
    if "<-chan".toList.isPrefixOf (texts elem).toList then .plain "chan (" :: elem ++ [.plain ")"]
    else .plain "chan " :: elem

end Piece

/-! ## The pieces of a type -/

mutual

def Ty.pieces (q : PackageRef → String) : Ty → List Piece
  | .basic .unsafePointer => [.reference .unsafePackage (q .unsafePackage) "Pointer"]
  | .basic kind => [.plain kind.name]
  | .named n => Named.pieces q n
  | .pointer elem => .plain "*" :: elem.pieces q
  | .slice elem => .plain "[]" :: elem.pieces q
  | .array length elem => .plain ("[" ++ length ++ "]") :: elem.pieces q
  | .map key value => .plain "map[" :: key.pieces q ++ .plain "]" :: value.pieces q
  | .channel direction elem => Piece.channel direction (elem.pieces q)
  | .function signature => .plain "func" :: Signature.pieces q signature
  | .struct fields => Piece.members "struct" (Ty.piecesOfFields q fields)
  | .interface methods embeds =>
    Piece.members "interface" (Ty.piecesOfAll q embeds ++ Ty.piecesOfMethods q methods)
  | .typeParam name => [.plain name]

def Named.pieces (q : PackageRef → String) : Named Ty → List Piece
  | ⟨none, name, args⟩ => .plain name :: Piece.bracketed (Ty.piecesOfAll q args)
  | ⟨some package, name, args⟩ =>
    .reference package (q package) name :: Piece.bracketed (Ty.piecesOfAll q args)

def Ty.piecesOfAll (q : PackageRef → String) : List Ty → List (List Piece)
  | [] => []
  | ty :: rest => ty.pieces q :: Ty.piecesOfAll q rest

def Signature.pieces (q : PackageRef → String) : Signature Ty → List Piece
  | ⟨params, results, variadic⟩ =>
    (.plain "(" :: Piece.join ", " (Ty.piecesOfParams q variadic params) ++ [.plain ")"]) ++
      Piece.results (Ty.piecesOfAll q results)

def Ty.piecesOfParams (q : PackageRef → String) (variadic : Bool) : List Ty → List (List Piece)
  | [] => []
  | [.slice elem] => [.plain (if variadic then "..." else "[]") :: elem.pieces q]
  | ty :: rest => ty.pieces q :: Ty.piecesOfParams q variadic rest

def Ty.piecesOfFields (q : PackageRef → String) : List (Field Ty) → List (List Piece)
  | [] => []
  | field :: rest => Field.pieces q field :: Ty.piecesOfFields q rest

def Field.pieces (q : PackageRef → String) : Field Ty → List Piece
  | ⟨name, type, embedded, tag, _⟩ =>
    .plain (if embedded then "" else name ++ " ") :: type.pieces q ++
      [.plain (match tag with
        | some t => " " ++ t
        | none => "")]

def Ty.piecesOfMethods (q : PackageRef → String) : List (MethodSpec Ty) → List (List Piece)
  | [] => []
  | method :: rest => MethodSpec.pieces q method :: Ty.piecesOfMethods q rest

def MethodSpec.pieces (q : PackageRef → String) : MethodSpec Ty → List Piece
  | ⟨name, signature⟩ => .plain name :: Signature.pieces q signature

end

/-! ## The pieces of a method -/

/-- A line of source text whose text is in pieces. -/
def Piece.line (indent : Nat) (ps : List Piece) : List Piece :=
  .plain (String.ofList (List.replicate indent '\t')) :: ps ++ [.plain "\n"]

def Value.pieces (q : PackageRef → String) (e : Operand) : Value → List Piece
  | .zero kind => [.plain kind.zeroLiteral]
  | .null => [.plain "nil"]
  | .emptied => [.plain (e.primary ++ "[:0]")]
  | .composite type => type.pieces q ++ [.plain "{}"]
  | .blank type => .plain "*new(" :: type.pieces q ++ [.plain ")"]

def Statement.pieces (q : PackageRef → String) (indent : Nat) : Statement → List Piece
  | .assign e value => Piece.line indent (.plain (e.value ++ " = ") :: value.pieces q e)
  | .clear e => Piece.line indent [.plain ("clear(" ++ e.value ++ ")")]
  | .call e => Piece.line indent [.plain (e.primary ++ ".Reset()")]
  | .guarded e body =>
    Piece.line indent [.plain ("if " ++ e.value ++ " != nil " ++ openBrace)] ++ body.pieces q (indent + 1) ++
      Piece.line indent [.plain closeBrace]
  | .callIfAble e =>
    Piece.line indent [.plain (assertion e.primary)] ++
      Piece.line (indent + 1) [.plain "r.Reset()"] ++ Piece.line indent [.plain closeBrace]
  | .probe e type =>
    Piece.line indent [.plain (assertion ("any(" ++ e.address ++ ")"))] ++
      Piece.line (indent + 1) [.plain "r.Reset()"] ++
      Piece.line indent [.plain (closeBrace ++ " else " ++ assertion ("any(" ++ e.value ++ ")"))] ++
      Piece.line (indent + 1) [.plain "r.Reset()"] ++
      Piece.line indent [.plain (closeBrace ++ " else " ++ openBrace)] ++
      Piece.line (indent + 1)
        (.plain (e.value ++ " = *new(") :: type.pieces q ++ [.plain ")"]) ++
      Piece.line indent [.plain closeBrace]

/-- The method up to its first statement, the statements, and the closing brace. -/
def ResetMethod.pieces (q : PackageRef → String) (m : ResetMethod) : List Piece :=
  Piece.line 0 [.plain ("func (" ++ m.receiver ++ " *" ++ m.typeName ++ ") Reset() " ++ openBrace)] ++
    Piece.line 1 [.plain ("if " ++ m.receiver ++ " == nil " ++ openBrace)] ++
    Piece.line 2 [.plain "return"] ++ Piece.line 1 [.plain closeBrace] ++
    (if m.body.isEmpty then [] else Piece.line 0 [.plain ""]) ++
    m.body.flatMap (·.pieces q 1) ++ Piece.line 0 [.plain closeBrace]

/-! ## Pieces and texts -/

/-- The pieces make up the text, name these packages, and carry the qualifiers that `q` gives. -/
structure Writes (q : PackageRef → String) (ps : List Piece) (text : String)
    (packages : List PackageRef) : Prop where
  text : Piece.texts ps = text
  packages : Piece.packages ps = packages
  qualifiers : ∀ package qualifier name, .reference package qualifier name ∈ ps →
    qualifier = q package

/-- The same for lists of pieces, one by one. -/
structure WritesAll (q : PackageRef → String) (items : List (List Piece)) (texts : List String)
    (packages : List PackageRef) : Prop where
  texts : items.map Piece.texts = texts
  packages : items.flatMap Piece.packages = packages
  qualifiers : ∀ ps ∈ items, ∀ package qualifier name, .reference package qualifier name ∈ ps →
    qualifier = q package

section Writes

variable {q : PackageRef → String} {ps rs : List Piece} {t u : String} {as bs : List PackageRef}
  {items items' : List (List Piece)} {ts us : List String}

theorem Piece.texts_append (ps rs : List Piece) : texts (ps ++ rs) = texts ps ++ texts rs := by
  induction ps with
  | nil => simp [texts]
  | cons p ps ih => simp [texts, ih, String.append_assoc]

theorem Piece.packages_append (ps rs : List Piece) :
    packages (ps ++ rs) = packages ps ++ packages rs := by
  induction ps with
  | nil => rfl
  | cons p ps ih =>
    cases p with
    | plain text => exact ih
    | reference package qualifier name => simp [packages, ih]

theorem Piece.exists_of_mem_packages {p : PackageRef} (h : p ∈ packages ps) :
    ∃ qualifier name, .reference p qualifier name ∈ ps := by
  induction ps with
  | nil => cases h
  | cons first ps ih =>
    cases first with
    | plain text =>
      obtain ⟨qualifier, name, hm⟩ := ih h
      exact ⟨qualifier, name, List.mem_cons_of_mem _ hm⟩
    | reference package qualifier name =>
      rcases List.mem_cons.1 h with rfl | h
      · exact ⟨qualifier, name, List.mem_cons_self⟩
      · obtain ⟨qualifier, name, hm⟩ := ih h
        exact ⟨qualifier, name, List.mem_cons_of_mem _ hm⟩

theorem Piece.mem_packages {p : PackageRef} {qualifier name : String}
    (h : .reference p qualifier name ∈ ps) : p ∈ packages ps := by
  induction ps with
  | nil => cases h
  | cons first ps ih =>
    rcases List.mem_cons.1 h with rfl | hrest
    · exact List.mem_cons_self
    · cases first with
      | plain text => exact ih hrest
      | reference package qualifier name => exact List.mem_cons_of_mem _ (ih hrest)

namespace Writes

theorem nil : Writes q [] "" [] := ⟨rfl, rfl, by simp⟩

theorem plain (text : String) : Writes q [.plain text] text [] :=
  ⟨by simp [Piece.texts, Piece.text], rfl, by simp⟩

theorem reference (package : PackageRef) (name : String) :
    Writes q [.reference package (q package) name] (q package ++ name) [package] := by
  refine ⟨by simp [Piece.texts, Piece.text], rfl, ?_⟩
  intro p qualifier n hm
  rw [List.mem_singleton] at hm
  cases hm
  rfl

theorem append (h : Writes q ps t as) (h' : Writes q rs u bs) :
    Writes q (ps ++ rs) (t ++ u) (as ++ bs) := by
  refine ⟨by rw [Piece.texts_append, h.text, h'.text], by
    rw [Piece.packages_append, h.packages, h'.packages], ?_⟩
  intro p qualifier name hm
  rcases List.mem_append.1 hm with hm | hm
  · exact h.qualifiers p qualifier name hm
  · exact h'.qualifiers p qualifier name hm

theorem after (text : String) (h : Writes q ps t as) :
    Writes q (.plain text :: ps) (text ++ t) as :=
  (plain text).append h

theorem before (h : Writes q ps t as) (text : String) :
    Writes q (ps ++ [.plain text]) (t ++ text) as := by
  have hp := h.append (plain text)
  rwa [List.append_nil] at hp

theorem of_eq (h : Writes q ps t as) (ht : t = u) : Writes q ps u as := ht ▸ h

end Writes

namespace WritesAll

theorem nil : WritesAll q [] [] [] := ⟨rfl, rfl, by simp⟩

theorem cons (h : Writes q ps t as) (hs : WritesAll q items ts bs) :
    WritesAll q (ps :: items) (t :: ts) (as ++ bs) := by
  refine ⟨by rw [List.map_cons, h.text, hs.texts], by
    rw [List.flatMap_cons, h.packages, hs.packages], ?_⟩
  exact List.forall_mem_cons.2 ⟨h.qualifiers, hs.qualifiers⟩

theorem append (h : WritesAll q items ts as) (h' : WritesAll q items' us bs) :
    WritesAll q (items ++ items') (ts ++ us) (as ++ bs) := by
  refine ⟨by rw [List.map_append, h.texts, h'.texts], by
    rw [List.flatMap_append, h.packages, h'.packages], ?_⟩
  exact List.forall_mem_append.2 ⟨h.qualifiers, h'.qualifiers⟩

/-- The first item and the others. -/
theorem uncons (h : WritesAll q (ps :: items) ts as) :
    ∃ t us as' bs, ts = t :: us ∧ as = as' ++ bs ∧ Writes q ps t as' ∧ WritesAll q items us bs := by
  obtain ⟨hps, hitems⟩ := List.forall_mem_cons.1 h.qualifiers
  exact ⟨_, _, _, _, h.texts.symm, h.packages.symm, ⟨rfl, rfl, hps⟩, ⟨rfl, rfl, hitems⟩⟩

theorem join (sep : String) (h : WritesAll q items ts as) :
    Writes q (Piece.join sep items) (Text.join sep ts) as := by
  induction items generalizing ts as with
  | nil =>
    obtain ⟨rfl, rfl, -⟩ := h
    exact .nil
  | cons ps items ih =>
    obtain ⟨t, us, as', bs, rfl, rfl, hps, hitems⟩ := h.uncons
    cases items with
    | nil =>
      obtain ⟨rfl, rfl, -⟩ := hitems
      rw [List.flatMap_nil, List.append_nil]
      exact hps
    | cons rs items =>
      have hrest := ih hitems
      obtain ⟨u, us, -, -, rfl, -, -, -⟩ := hitems.uncons
      exact (hps.append (hrest.after sep)).of_eq (by simp [Text.join, String.append_assoc])

theorem bracketed (h : WritesAll q items ts as) :
    Writes q (Piece.bracketed items) (ResetMethods.bracketed ts) as := by
  cases items with
  | nil =>
    obtain ⟨rfl, rfl, -⟩ := h
    exact .nil
  | cons ps items =>
    have hjoin := ((h.join ", ").after "[").before "]"
    obtain ⟨t, us, -, -, rfl, -, -, -⟩ := h.uncons
    exact hjoin

theorem results (h : WritesAll q items ts as) :
    Writes q (Piece.results items) (spellResults ts) as := by
  cases items with
  | nil =>
    obtain ⟨rfl, rfl, -⟩ := h
    exact .nil
  | cons ps items =>
    have hjoin := h.join ", "
    obtain ⟨t, us, as', bs, rfl, rfl, hps, hitems⟩ := h.uncons
    cases items with
    | nil =>
      obtain ⟨rfl, -, -⟩ := hitems
      exact hjoin.after " "
    | cons rs items =>
      obtain ⟨u, us, -, -, rfl, -, -, -⟩ := hitems.uncons
      exact (hjoin.after " (").before ")"

theorem members (keyword : String) (h : WritesAll q items ts as) :
    Writes q (Piece.members keyword items) (spellMembers keyword ts) as := by
  cases items with
  | nil =>
    obtain ⟨rfl, rfl, -⟩ := h
    exact .plain _
  | cons ps items =>
    have hjoin := ((h.join "; ").after (keyword ++ openBrace ++ " ")).before (" " ++ closeBrace)
    obtain ⟨t, us, -, -, rfl, -, -, -⟩ := h.uncons
    rw [← String.append_assoc] at hjoin
    exact hjoin

end WritesAll

theorem Writes.channel (h : Writes q ps t as) (direction : Direction) :
    Writes q (Piece.channel direction ps) (spellChannel direction t) as := by
  cases direction with
  | send => exact h.after _
  | receive => exact h.after _
  | both =>
    rw [Piece.channel, spellChannel, h.text]
    split
    · exact (h.after "chan (").before ")"
    · exact h.after "chan "

/-! ## Types -/

mutual

/-- The pieces of a type make up its text and name its packages. -/
theorem Ty.writes (q : PackageRef → String) :
    ∀ ty : Ty, Writes q (ty.pieces q) (ty.spell q) ty.packages
  | .basic kind => by
    cases kind with
    | unsafePointer => exact .reference _ _
    | _ => exact .plain _
  | .named n => Named.writes q n
  | .pointer elem => (Ty.writes q elem).after "*"
  | .slice elem => (Ty.writes q elem).after "[]"
  | .array length elem => (Ty.writes q elem).after ("[" ++ length ++ "]")
  | .map key value => by
    have hkey := (Ty.writes q key).after "map["
    have hvalue := (Ty.writes q value).after "]"
    exact (hkey.append hvalue).of_eq (by simp [Ty.spell, String.append_assoc])
  | .channel direction elem => (Ty.writes q elem).channel direction
  | .function signature => (Signature.writes q signature).after "func"
  | .struct fields => (Ty.writesAllFields q fields).members "struct"
  | .interface methods embeds =>
    ((Ty.writesAll q embeds).append (Ty.writesAllMethods q methods)).members "interface"
  | .typeParam name => .plain name

theorem Named.writes (q : PackageRef → String) :
    ∀ n : Named Ty, Writes q (Named.pieces q n) (Named.spell q n) (Named.packages n)
  | ⟨none, name, args⟩ => by
    have h := (Ty.writesAll q args).bracketed.after name
    exact h.of_eq (by simp [Named.spell, qualifierOf])
  | ⟨some package, name, args⟩ =>
    (Writes.reference package name).append (Ty.writesAll q args).bracketed

theorem Ty.writesAll (q : PackageRef → String) :
    ∀ tys : List Ty, WritesAll q (Ty.piecesOfAll q tys) (Ty.spellAll q tys) (Ty.packagesOfAll tys)
  | [] => .nil
  | ty :: rest => (Ty.writesAll q rest).cons (Ty.writes q ty)

theorem Signature.writes (q : PackageRef → String) :
    ∀ signature : Signature Ty,
    Writes q (Signature.pieces q signature) (Signature.spell q signature)
      (Signature.packages signature)
  | ⟨params, results, variadic⟩ =>
    ((((Ty.writesAllParams q variadic params).join ", ").after "(").before ")").append
      (Ty.writesAll q results).results

theorem Ty.writesAllParams (q : PackageRef → String) (variadic : Bool) :
    ∀ params : List Ty, WritesAll q (Ty.piecesOfParams q variadic params)
      (Ty.spellParams q variadic params) (Ty.packagesOfAll params)
  | [] => .nil
  | ty :: rest => by
    have hty := Ty.writes q ty
    have hrest := Ty.writesAllParams q variadic rest
    -- only a slice that comes last is spelled as a variadic parameter
    cases rest with
    | cons _ _ => cases ty <;> exact hrest.cons hty
    | nil =>
      cases ty with
      | slice elem =>
        have helem := (Ty.writes q elem).after (if variadic then "..." else "[]")
        have h := WritesAll.nil.cons helem
        rw [Ty.spellParams]
        cases variadic <;> exact h
      | _ => exact hrest.cons hty

theorem Ty.writesAllFields (q : PackageRef → String) :
    ∀ fields : List (Field Ty), WritesAll q (Ty.piecesOfFields q fields)
      (Ty.spellFields q fields) (Ty.packagesOfFields fields)
  | [] => .nil
  | field :: rest => (Ty.writesAllFields q rest).cons (Field.writes q field)

theorem Field.writes (q : PackageRef → String) :
    ∀ field : Field Ty, Writes q (Field.pieces q field) (Field.spell q field) (Field.packages field)
  | ⟨_, type, _, _, _⟩ => ((Ty.writes q type).after _).before _

theorem Ty.writesAllMethods (q : PackageRef → String) :
    ∀ methods : List (MethodSpec Ty), WritesAll q (Ty.piecesOfMethods q methods)
      (Ty.spellMethods q methods) (Ty.packagesOfMethods methods)
  | [] => .nil
  | method :: rest => (Ty.writesAllMethods q rest).cons (MethodSpec.writes q method)

theorem MethodSpec.writes (q : PackageRef → String) :
    ∀ method : MethodSpec Ty,
    Writes q (MethodSpec.pieces q method) (MethodSpec.spell q method) (MethodSpec.packages method)
  | ⟨name, signature⟩ => (Signature.writes q signature).after name

end

/-! ## Statements and methods -/

theorem Writes.line (h : Writes q ps t as) (indent : Nat) :
    Writes q (Piece.line indent ps) (renderLines [⟨indent, t⟩]) as :=
  ((h.after _).before "\n").of_eq (by simp [renderLines, Line.render])

/-- A line that names no package. -/
theorem Writes.plainLine (q : PackageRef → String) (indent : Nat) (text : String) :
    Writes q (Piece.line indent [.plain text]) (renderLines [⟨indent, text⟩]) [] :=
  (plain text).line indent

theorem Writes.appendLines {a b : List Line} (h : Writes q ps (renderLines a) as)
    (h' : Writes q rs (renderLines b) bs) : Writes q (ps ++ rs) (renderLines (a ++ b)) (as ++ bs) :=
  (h.append h').of_eq (renderLines_append a b).symm

theorem Statement.packages_of_types {st : Statement} {type : Ty} (h : st.types = [type]) :
    st.packages = type.packages := by
  rw [packages, h]
  exact List.append_nil _

theorem Value.writes (q : PackageRef → String) (e : Operand) (value : Value) :
    Writes q (value.pieces q e) (value.spell (Ty.spell q) e) (Statement.assign e value).packages := by
  cases value with
  | composite type =>
    have hp : (Statement.assign e (.composite type)).packages = type.packages :=
      Statement.packages_of_types rfl
    rw [hp]
    exact (Ty.writes q type).before "{}"
  | blank type =>
    have hp : (Statement.assign e (.blank type)).packages = type.packages :=
      Statement.packages_of_types rfl
    rw [hp]
    exact ((Ty.writes q type).after "*new(").before ")"
  | _ => exact .plain _

theorem Statement.writes (q : PackageRef → String) (indent : Nat) (st : Statement) :
    Writes q (st.pieces q indent) (renderLines (st.lines (Ty.spell q) indent)) st.packages := by
  induction st generalizing indent with
  | assign e value => exact ((Value.writes q e value).after _).line indent
  | clear e => exact .plainLine q indent _
  | call e => exact .plainLine q indent _
  | guarded e body ih =>
    have hopen := Writes.plainLine q indent ("if " ++ e.value ++ " != nil " ++ openBrace)
    have h := (hopen.appendLines (ih (indent + 1))).appendLines (.plainLine q indent closeBrace)
    rwa [List.append_nil] at h
  | callIfAble e =>
    have h := (Writes.plainLine q indent (assertion e.primary)).appendLines
      (.plainLine q (indent + 1) "r.Reset()")
    exact h.appendLines (.plainLine q indent closeBrace)
  | probe e type =>
    have hnew := ((Ty.writes q type).after (e.value ++ " = *new(")).before ")"
    have hnew := hnew.line (indent + 1)
    have h := (Writes.plainLine q indent (assertion ("any(" ++ e.address ++ ")"))).appendLines
      (.plainLine q (indent + 1) "r.Reset()")
    have h := h.appendLines
      (.plainLine q indent (closeBrace ++ " else " ++ assertion ("any(" ++ e.value ++ ")")))
    have h := h.appendLines (.plainLine q (indent + 1) "r.Reset()")
    have h := h.appendLines (.plainLine q indent (closeBrace ++ " else " ++ openBrace))
    have h := (h.appendLines hnew).appendLines (.plainLine q indent closeBrace)
    have hp : (Statement.probe e type).packages = type.packages := packages_of_types rfl
    rw [hp]
    rwa [List.append_nil] at h

theorem Statement.writesAll (q : PackageRef → String) (indent : Nat) (body : List Statement) :
    Writes q (body.flatMap (·.pieces q indent))
      (renderLines (body.flatMap (·.lines (Ty.spell q) indent)))
      (body.flatMap Statement.packages) := by
  induction body with
  | nil => exact .nil
  | cons st body ih =>
    simp only [List.flatMap_cons]
    exact (st.writes q indent).appendLines ih

/-- The pieces of a method make up its text and name its packages. -/
theorem ResetMethod.writes (q : PackageRef → String) (m : ResetMethod) :
    Writes q (m.pieces q) (m.render (Ty.spell q)) m.packages := by
  have hheader := Writes.plainLine q 0
    ("func (" ++ m.receiver ++ " *" ++ m.typeName ++ ") Reset() " ++ openBrace)
  have h := hheader.appendLines (.plainLine q 1 ("if " ++ m.receiver ++ " == nil " ++ openBrace))
  have h := (h.appendLines (.plainLine q 2 "return")).appendLines (.plainLine q 1 closeBrace)
  have hblank : Writes q (if m.body.isEmpty then [] else Piece.line 0 [.plain ""])
      (renderLines (if m.body.isEmpty then [] else [⟨0, ""⟩])) [] := by
    split
    · exact .nil
    · exact .plainLine q 0 ""
  have h := (h.appendLines hblank).appendLines (Statement.writesAll q 1 m.body)
  have h := h.appendLines (.plainLine q 0 closeBrace)
  rwa [List.append_nil] at h

end Writes

end ResetMethods
