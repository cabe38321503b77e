import ResetMethods.Proofs.Printing.Reader
import ResetMethods.Proofs.Printing.Shown

/-!
# ResetMethods.Proofs.Printing.Legible

Types whose text can be read, and how their texts begin and end.

* `Ty.IsLegible`: names are names, tags are literals, and no name has two meanings.
* `Lexicon.Resolves`: the qualifier of a package is read as its path.
* `Stops`, `EndsMember`: what follows a type, and what follows a member of one.
* `Opens`: how the text of a type begins (`Lexicon.Knows.opens`).
-/

namespace ResetMethods

/-! ## Legible types -/

/-- An identifier that no type starts with. -/
structure IsPlainName (name : String) : Prop where
  word : IsWord name
  not_keyword : name ∉ typeKeywords

/-- A string literal with its quotes. -/
inductive IsLiteral : String → Prop where
  | quoted {body : List Char} : Layout.Quotable '"' body →
      IsLiteral (String.ofList ('"' :: body ++ ['"']))
  | raw {body : List Char} : Layout.rawQuote ∉ body →
      IsLiteral (String.ofList (Layout.rawQuote :: body ++ [Layout.rawQuote]))

/-- Only a slice at the end can be variadic. -/
def Signature.IsLegible (s : Signature Ty) : Prop :=
  s.variadic = true → ∃ front elem, s.params = front ++ [.slice elem]

/-- A name that is predeclared as a type. -/
def isPredeclared (name : String) : Bool := (BasicKind.ofName? name).isSome || name == "error"

section Legible

variable (host : String) (params : List String)

/-- What is wanted of a type itself, its parts aside. The text is written for the package at the
path `host`; `params` are the type parameters. -/
def Ty.IsSound : Ty → Prop
  | .basic kind => kind ≠ .invalid ∧ kind ≠ .untypedNil
  | .named ⟨none, name, _⟩ => name = "error"
  | .named ⟨some p, name, _⟩ => IsPlainName name ∧ (p.path = "unsafe" → name ≠ "Pointer") ∧
      (p.path = host → name ∉ params ∧ isPredeclared name = false)
  | .array length _ => IsWord length
  | .function signature => signature.IsLegible
  | .struct fields => ∀ f ∈ fields, (f.embedded = false → IsPlainName f.name) ∧
      ∀ tag ∈ f.tag, IsLiteral tag
  | .interface methods _ => ∀ m ∈ methods, IsPlainName m.name ∧ m.signature.IsLegible
  | .typeParam name => IsPlainName name ∧ name ∈ params
  | _ => True

def Ty.IsLegible (ty : Ty) : Prop := ∀ u, ty.Mentions u → u.IsSound host params

/-- Legible is what is sound on every level. -/
theorem Ty.isLegible_iff {ty : Ty} :
    ty.IsLegible host params ↔
      ty.IsSound host params ∧ ∀ c ∈ ty.children, c.IsLegible host params := by
  constructor
  · intro h
    exact ⟨h ty (.refl ty), fun c hc u hu => h u (.head hc hu)⟩
  · rintro ⟨hself, hparts⟩ u hu
    rcases mentions_iff.1 hu with rfl | ⟨c, hc, hcu⟩
    · exact hself
    · exact hparts c hc u hcu

/-- No type parameter has the name of a predeclared type, or that of `unsafe.Pointer` in the package
`unsafe`. The names of declared types are set apart in `Ty.IsSound`. -/
structure SetApart : Prop where
  predeclared : ∀ name ∈ params, isPredeclared name = false
  pointer : host = "unsafe" → "Pointer" ∉ params

end Legible

/-- The qualifier of a package is read as its path. -/
inductive Lexicon.Resolves (L : Lexicon) (q : PackageRef → String) (p : PackageRef) : Prop where
  | own : q p = "" → p.path = L.host → Resolves L q p
  | foreign {qualifier : String} : IsWord qualifier → q p = qualifier ++ "." →
      L.owner qualifier = some p.path → Resolves L q p

/-- The text of a type can be read. -/
structure Lexicon.Knows (L : Lexicon) (q : PackageRef → String) (ty : Ty) : Prop where
  legible : ty.IsLegible L.host L.params
  resolves : ∀ p name, ty.Refers p name → L.Resolves q p

/-! ## What follows a type -/

/-- What can follow a type: nothing, the end of a list or of an item, or a space before the end of
the members or before a tag. -/
inductive Stops : List Char → Prop where
  | nil : Stops []
  | mark {c : Char} (cs : List Char) : c = ',' ∨ c = ')' ∨ c = ']' ∨ c = ';' → Stops (c :: cs)
  | space {c : Char} (cs : List Char) : c = '}' ∨ c = '"' ∨ c = Layout.rawQuote →
      Stops (' ' :: c :: cs)

/-- What can follow a member of a struct or interface type. -/
inductive EndsMember : List Char → Prop where
  | next (cs : List Char) : EndsMember (';' :: cs)
  | last (cs : List Char) : EndsMember (' ' :: '}' :: cs)

theorem EndsMember.stops {rest : List Char} (h : EndsMember rest) : Stops rest := by
  cases h with
  | next cs => exact .mark cs (by simp)
  | last cs => exact .space cs (by simp)

theorem Stops.head {rest : List Char} (h : Stops rest) {c : Char} (hc : rest.head? = some c) :
    c ∈ [' ', ',', ')', ']', ';'] := by
  cases h with
  | nil => cases hc
  | mark cs h =>
    cases hc
    exact List.mem_cons_of_mem _ (by simpa using h)
  | space cs h =>
    cases hc
    simp

/-- The characters that end a word in the text of a type. -/
def wordEnds : List Char := [' ', ',', ')', ']', ';', '.', '(', '[', '<', '{']

theorem not_word_of_mem {c : Char} (h : c ∈ wordEnds) : isWordChar c = false := by
  have hall : wordEnds.all (fun c => !isWordChar c) = true := by decide +kernel
  simpa using List.all_eq_true.1 hall c h

/-! ## Texts, character by character -/

section Texts

variable (q : PackageRef → String)

theorem toList_pointer (elem : Ty) :
    (Ty.spell q (.pointer elem)).toList = '*' :: (elem.spell q).toList := by
  simp [Ty.spell]

theorem toList_slice (elem : Ty) :
    (Ty.spell q (.slice elem)).toList = '[' :: ']' :: (elem.spell q).toList := by
  simp [Ty.spell]

theorem toList_array (length : String) (elem : Ty) :
    (Ty.spell q (.array length elem)).toList =
      '[' :: (length.toList ++ ']' :: (elem.spell q).toList) := by
  simp [Ty.spell]

theorem toList_map (key value : Ty) :
    (Ty.spell q (.map key value)).toList =
      "map".toList ++ '[' :: ((key.spell q).toList ++ ']' :: (value.spell q).toList) := by
  simp [Ty.spell]

theorem toList_send (elem : String) :
    (spellChannel .send elem).toList = "chan".toList ++ '<' :: '-' :: ' ' :: elem.toList := by
  simp [spellChannel]

theorem toList_receive (elem : String) :
    (spellChannel .receive elem).toList =
      '<' :: '-' :: 'c' :: 'h' :: 'a' :: 'n' :: ' ' :: elem.toList := by
  simp [spellChannel]

/-- A channel for both directions, with or without parentheses. -/
theorem toList_both (elem : String) :
    (spellChannel .both elem).toList = "chan".toList ++ ' ' :: '(' :: (elem.toList ++ [')']) ∨
      (spellChannel .both elem).toList = "chan".toList ++ ' ' :: elem.toList := by
  rw [spellChannel]
  split
  · exact .inl (by simp)
  · exact .inr (by simp)

theorem toList_signature (s : Signature Ty) :
    (Signature.spell q s).toList =
      '(' :: ((Text.join ", " (Ty.spellParams q s.variadic s.params)).toList ++
        ')' :: (spellResults (Ty.spellAll q s.results)).toList) := by
  obtain ⟨params, results, variadic⟩ := s
  simp [Signature.spell]

theorem toList_function (s : Signature Ty) :
    (Ty.spell q (.function s)).toList = "func".toList ++ (Signature.spell q s).toList := by
  simp [Ty.spell]

/-- What stands behind the keyword of a struct or interface type. -/
def membersText : List String → List Char
  | [] => ['{', '}']
  | items => '{' :: ' ' :: ((Text.join "; " items).toList ++ [' ', '}'])

theorem toList_members (keyword : String) (items : List String) :
    (spellMembers keyword items).toList = keyword.toList ++ membersText items := by
  cases items <;> simp [spellMembers, membersText]

end Texts

/-! ## How a type begins -/

/-- How the text of a type begins: with a sign, or with a word. Only a keyword has a space, a
parenthesis or a brace behind it. -/
inductive Opens : List Char → Prop where
  | sign {c : Char} (cs : List Char) : c ∈ ['*', '[', '<'] → Opens (c :: cs)
  | bare {word : String} : IsWord word → Opens word.toList
  | word {word : String} {c : Char} (cs : List Char) : IsWord word → c ∈ wordEnds →
      word ∈ typeKeywords ∨ c = '.' ∨ c = '[' → Opens (word.toList ++ c :: cs)

theorem IsWord.exists_cons {word : String} (h : IsWord word) :
    ∃ c cs, word.toList = c :: cs ∧ isWordChar c = true := by
  obtain ⟨c, cs, hcs⟩ := List.exists_cons_of_ne_nil h.ne_nil
  exact ⟨c, cs, hcs, h.all c (by simp [hcs])⟩

theorem Opens.exists_cons {text : List Char} (h : Opens text) :
    ∃ c cs, text = c :: cs ∧ startsType c = true := by
  cases h with
  | sign cs hc =>
    refine ⟨_, cs, rfl, ?_⟩
    simp only [List.mem_cons, List.not_mem_nil, or_false] at hc
    obtain rfl | rfl | rfl := hc <;> rfl
  | bare hw =>
    obtain ⟨c, cs, hcs, hc⟩ := hw.exists_cons
    exact ⟨c, cs, hcs, by simp [startsType, hc]⟩
  | word tail hw _ _ =>
    obtain ⟨c, cs, hcs, hc⟩ := hw.exists_cons
    exact ⟨c, _, by rw [hcs, List.cons_append], by simp [startsType, hc]⟩

theorem isWord_keyword {word : String} (h : word ∈ typeKeywords) : IsWord word := by
  have hall : ∀ word ∈ typeKeywords,
      (!word.toList.isEmpty && word.toList.all isWordChar) = true := by decide +kernel
  exact isWord_literal (hall word h)

theorem opens_keyword {word : String} {c : Char} (cs : List Char) (hw : word ∈ typeKeywords)
    (hc : c ∈ wordEnds) : Opens (word.toList ++ c :: cs) :=
  .word cs (isWord_keyword hw) hc (.inl hw)

theorem opens_bracketed {name : String} (hw : IsWord name) (items : List String) :
    Opens (name ++ bracketed items).toList := by
  cases items with
  | nil => simpa [bracketed] using Opens.bare hw
  | cons item rest =>
    have hopens := Opens.word (Text.join ", " (item :: rest) ++ "]").toList hw
      (by decide : '[' ∈ wordEnds) (.inr (.inr rfl))
    simpa [bracketed] using hopens

theorem isPlainName_pointer : IsPlainName "Pointer" :=
  ⟨isWord_literal (by decide +kernel), by decide⟩

theorem isPlainName_error : IsPlainName "error" := ⟨isWord_literal (by decide +kernel), by decide⟩

theorem isPlainName_predeclared {kind : BasicKind} (h : kind.isPredeclared = true) :
    IsPlainName kind.name := by
  have hword : ∀ kind ∈ BasicKind.all, kind.isPredeclared = true →
      (!kind.name.toList.isEmpty && kind.name.toList.all isWordChar) = true := by decide +kernel
  have hkeyword : ∀ kind ∈ BasicKind.all, kind.name ∉ typeKeywords := by decide +kernel
  exact ⟨isWord_literal (hword kind kind.mem_all h), hkeyword kind kind.mem_all⟩

theorem BasicKind.isPredeclared_of_ne {kind : BasicKind} (hp : kind ≠ .unsafePointer)
    (hi : kind ≠ .invalid) (hn : kind ≠ .untypedNil) : kind.isPredeclared = true := by
  cases kind <;> simp_all [BasicKind.isPredeclared]

section

variable {L : Lexicon} {q : PackageRef → String} {p : PackageRef} {ty : Ty}

/-- A name behind the qualifier of its package opens the text of a type. -/
theorem Lexicon.Resolves.opens {name : String} (h : L.Resolves q p) (hw : IsWord name)
    (items : List String) : Opens (q p ++ name ++ bracketed items).toList := by
  cases h with
  | own htext _ => simpa [htext] using opens_bracketed hw items
  | foreign hq htext _ =>
    rw [htext]
    have hopens := Opens.word (name ++ bracketed items).toList hq (by decide : '.' ∈ wordEnds)
      (.inr (.inl rfl))
    simpa using hopens

theorem opens_members {keyword : String} (hk : keyword ∈ typeKeywords) (items : List String) :
    Opens (spellMembers keyword items).toList := by
  rw [toList_members]
  cases items with
  | nil => exact opens_keyword _ hk (by decide)
  | cons item rest => exact opens_keyword _ hk (by decide)

theorem Lexicon.Knows.reference (h : L.Knows q ty) {name : String}
    (hr : ty.reference? = some (p, name)) : L.Resolves q p :=
  h.resolves p name ⟨ty, .refl ty, hr⟩

theorem Lexicon.Knows.sound (h : L.Knows q ty) : ty.IsSound L.host L.params :=
  h.legible ty (.refl ty)

theorem Lexicon.Knows.of_mentions (h : L.Knows q ty) {u : Ty} (hu : ty.Mentions u) : L.Knows q u :=
  ⟨fun w hw => h.legible w (hu.trans hw), fun p name hr => h.resolves p name (hr.of_mentions hu)⟩

/-- The text of a type opens in one of the ways above. -/
theorem Lexicon.Knows.opens (h : L.Knows q ty) : Opens (ty.spell q).toList := by
  have hs := h.sound
  cases ty with
  | basic kind =>
    by_cases hk : kind = .unsafePointer
    · subst hk
      have hopens := (h.reference rfl).opens isPlainName_pointer.word []
      simpa [bracketed, Ty.spell] using hopens
    · rw [Ty.spell_basic q hk]
      exact .bare (isPlainName_predeclared (BasicKind.isPredeclared_of_ne hk hs.1 hs.2)).word
  | named n =>
    obtain ⟨package, name, args⟩ := n
    rw [Ty.spell, Named.spell]
    cases package with
    | none =>
      obtain rfl : name = "error" := hs
      have hopens := opens_bracketed isPlainName_error.word (Ty.spellAll q args)
      simpa [qualifierOf] using hopens
    | some p => exact (h.reference rfl).opens hs.1.word _
  | pointer elem =>
    rw [toList_pointer]
    exact .sign _ (by decide)
  | slice elem =>
    rw [toList_slice]
    exact .sign _ (by decide)
  | array length elem =>
    rw [toList_array]
    exact .sign _ (by decide)
  | map key value =>
    rw [toList_map]
    exact opens_keyword _ (by decide) (by decide)
  | channel direction elem =>
    rw [Ty.spell]
    cases direction with
    | send =>
      rw [toList_send]
      exact opens_keyword _ (by decide) (by decide)
    | receive =>
      rw [toList_receive]
      exact .sign _ (by decide)
    | both =>
      rcases toList_both (elem.spell q) with htext | htext
      · rw [htext]
        exact opens_keyword _ (by decide) (by decide)
      · rw [htext]
        exact opens_keyword _ (by decide) (by decide)
  | function signature =>
    rw [toList_function, toList_signature]
    exact opens_keyword _ (by decide) (by decide)
  | struct fields => exact opens_members (by decide) _
  | interface methods embeds => exact opens_members (by decide) _
  | typeParam name => exact .bare hs.1.word

end
end ResetMethods
