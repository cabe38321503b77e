import ResetMethods.Proofs.Printing.Legible

/-!
# ResetMethods.Proofs.Printing.Readable

Parts of types are read back from their texts.

* `readWord_append`, `readEach_join`: words and lists.
* `ReadsAs`, `Ty.ReadBy`: a reader reads the text of a type, whatever follows it.
* `readArgs_bracketed`, `readSignature_spell`, `readMembers_text`: what such a reader makes of type
  arguments, signatures and members.
-/

namespace ResetMethods

open Text (join)

/-! ## Words and lists -/

theorem readWord_append {word : String} (hw : IsWord word) {rest : List Char}
    (hr : ∀ c, rest.head? = some c → isWordChar c = false) :
    readWord (word.toList ++ rest) = (word, rest) := by
  have hrest : rest.takeWhile isWordChar = [] ∧ rest.dropWhile isWordChar = rest := by
    cases rest with
    | nil => exact ⟨rfl, rfl⟩
    | cons c cs => simp [hr c rfl]
  rw [readWord, List.takeWhile_append_of_pos hw.all, List.dropWhile_append_of_pos hw.all, hrest.1,
    hrest.2, List.append_nil, String.ofList_toList]

theorem Stops.ends {rest : List Char} (hr : Stops rest) {c : Char} (hc : rest.head? = some c) :
    c ∈ wordEnds ∧ c ≠ '.' := by
  have hall : ∀ c ∈ [' ', ',', ')', ']', ';'], c ∈ wordEnds ∧ c ≠ '.' := by
    simp [wordEnds]
  exact hall c (hr.head hc)

theorem Stops.readWord {word : String} (hw : IsWord word) {rest : List Char} (hr : Stops rest) :
    readWord (word.toList ++ rest) = (word, rest) :=
  readWord_append hw fun _ hc => not_word_of_mem (hr.ends hc).1

section Each

variable {α β : Type} {item : Reader α} {text : β → String} {value : β → α} {separator : Char}
  {sep : String}

theorem readEach_last {fuel : Nat} {x : α} {cs rest : List Char} (hi : item cs = some (x, rest))
    (hr : rest.head? ≠ some separator) :
    readEach item separator (fuel + 1) cs = some ([x], rest) := by
  rw [readEach, hi]
  simp only [Option.bind_eq_bind, Option.bind_some]
  split
  · rename_i c cs
    rw [if_neg (by simpa using hr)]
  · rfl

/-- A list is read item by item. -/
theorem readEach_join (Follows : List Char → Prop) (hsep : sep.toList = [separator, ' '])
    (hf : ∀ cs, Follows (separator :: cs)) {x : β} {xs : List β} {fuel : Nat}
    (hfuel : xs.length < fuel)
    (hi : ∀ y ∈ x :: xs, ∀ rest, Follows rest →
      item ((text y).toList ++ rest) = some (value y, rest))
    {rest : List Char} (hr : Follows rest) (hend : rest.head? ≠ some separator) :
    readEach item separator fuel ((join sep ((x :: xs).map text)).toList ++ rest) =
      some ((x :: xs).map value, rest) := by
  induction xs generalizing x fuel with
  | nil =>
    obtain ⟨fuel, rfl⟩ : ∃ k, fuel = k + 1 := ⟨fuel - 1, by omega⟩
    exact readEach_last (hi x List.mem_cons_self rest hr) hend
  | cons y ys ih =>
    obtain ⟨hx, hi⟩ := List.forall_mem_cons.1 hi
    rw [List.length_cons] at hfuel
    obtain ⟨fuel, rfl⟩ : ∃ k, fuel = k + 1 := ⟨fuel - 1, by omega⟩
    have hrest := ih (by omega : ys.length < fuel) hi
    have hjoin : (join sep ((x :: y :: ys).map text)).toList ++ rest = (text x).toList ++
        separator :: ' ' :: ((join sep ((y :: ys).map text)).toList ++ rest) := by
      simp [join, hsep]
    rw [hjoin, readEach, hx _ (hf _)]
    simp only [Option.bind_eq_bind, Option.bind_some, if_true, hrest]
    rfl

theorem exists_join_cons (sep x : String) (xs : List String) (rest : List Char) :
    ∃ tail, (join sep (x :: xs)).toList ++ rest = x.toList ++ tail := by
  cases xs with
  | nil => exact ⟨rest, rfl⟩
  | cons y ys =>
    refine ⟨sep.toList ++ ((join sep (y :: ys)).toList ++ rest), ?_⟩
    rw [join, String.toList_append, String.toList_append, List.append_assoc, List.append_assoc]

end Each

/-! ## Names before types -/

theorem readWord_of_not_word {c : Char} (hc : isWordChar c = false) (cs : List Char) :
    readWord (c :: cs) = ("", c :: cs) := by
  simp [readWord, hc]

theorem readWord_cons {word : String} (hw : IsWord word) {c : Char} (hc : c ∈ wordEnds)
    (cs : List Char) : readWord (word.toList ++ c :: cs) = (word, c :: cs) := by
  refine readWord_append hw fun d hd => ?_
  obtain rfl : c = d := by simpa using hd
  exact not_word_of_mem hc

theorem not_word_sign {c : Char} (hc : c ∈ ['*', '[', '<']) : isWordChar c = false := by
  have hall : ['*', '[', '<'].all (fun c => !isWordChar c) = true := by decide +kernel
  simpa using List.all_eq_true.1 hall c hc

section Heads

variable {text rest : List Char}

/-- Only a keyword of a type has a space and another type behind it, or a parenthesis. -/
theorem Opens.readWord (h : Opens text) (hr : Stops rest) :
    ∃ word tail, readWord (text ++ rest) = (word, tail) ∧
      (∀ c cs, tail = ' ' :: c :: cs → startsType c = true → word ∈ typeKeywords) ∧
      ∀ cs, tail = '(' :: cs → word ∈ typeKeywords := by
  cases h with
  | sign cs hc =>
    refine ⟨_, _, readWord_of_not_word (not_word_sign hc) (cs ++ rest), ?_, ?_⟩
    · rintro c tail htail -
      obtain ⟨rfl, -⟩ := List.cons.inj htail
      simp at hc
    · rintro tail htail
      obtain ⟨rfl, -⟩ := List.cons.inj htail
      simp at hc
  | bare hw =>
    refine ⟨_, _, hr.readWord hw, ?_, ?_⟩
    · rintro c cs rfl hstart
      cases hr with
      | mark cs h => simp at h
      | space cs h =>
        have hends : startsType c = false := by rcases h with rfl | rfl | rfl <;> decide +kernel
        rw [hends] at hstart
        cases hstart
    · rintro cs rfl
      simpa using hr.head rfl
  | word cs hw hc hk =>
    refine ⟨_, _, by rw [List.append_assoc, List.cons_append, readWord_cons hw hc], ?_, ?_⟩
    · rintro c tail htail -
      obtain ⟨rfl, -⟩ := List.cons.inj htail
      simpa using hk
    · rintro tail htail
      obtain ⟨rfl, -⟩ := List.cons.inj htail
      simpa using hk

/-- The text of a type does not read as a name with a type behind it. -/
theorem Opens.readFieldName (h : Opens text) (hr : Stops rest) :
    readFieldName (text ++ rest) = none := by
  obtain ⟨word, tail, hread, hspace, -⟩ := h.readWord hr
  rw [ResetMethods.readFieldName, hread]
  split
  · rename_i c cs heq
    obtain ⟨rfl, rfl⟩ := Prod.mk.inj heq
    refine if_neg fun hname => ?_
    rw [Bool.and_eq_true] at hname
    simp [hspace c cs rfl hname.2] at hname
  · rfl

/-- The text of a type does not read as the name of a method. -/
theorem Opens.readMethodName (h : Opens text) (hr : Stops rest) :
    readMethodName (text ++ rest) = none := by
  obtain ⟨word, tail, hread, -, hparen⟩ := h.readWord hr
  rw [ResetMethods.readMethodName, hread]
  split
  · rename_i cs heq
    obtain ⟨rfl, rfl⟩ := Prod.mk.inj heq
    simp [hparen cs rfl]
  · rfl

end Heads

/-! ## Parts of types -/

/-- The text opens like a type and is read as the value, whatever follows. -/
structure ReadsAs (type : Reader Ty) (text : String) (value : Ty) : Prop where
  opens : Opens text.toList
  read : ∀ rest, Stops rest → type (text.toList ++ rest) = some (value, rest)

/-- A type is read, and so are its parts. -/
def Ty.ReadBy (type : Reader Ty) (q : PackageRef → String) (ty : Ty) : Prop :=
  ∀ u, ty.Mentions u → ReadsAs type (u.spell q) u.shown

theorem Ty.ReadBy.reads {type : Reader Ty} {q : PackageRef → String} {ty : Ty}
    (h : ty.ReadBy type q) : ReadsAs type (ty.spell q) ty.shown := h ty (.refl ty)

theorem startsType_ne {c d : Char} (hc : startsType c = true) (hd : startsType d = false) :
    c ≠ d := by
  rintro rfl
  rw [hc] at hd
  cases hd

theorem expect_cons (c : Char) (cs : List Char) : expect c (c :: cs) = some cs := if_pos rfl

section Parts

variable {type : Reader Ty} {q : PackageRef → String} {fuel : Nat} {rest : List Char}

theorem ReadsAs.exists_cons {text : String} {value : Ty} (h : ReadsAs type text value)
    (rest : List Char) : ∃ c cs, text.toList ++ rest = c :: cs ∧ startsType c = true := by
  obtain ⟨c, cs, hcs, hc⟩ := h.opens.exists_cons
  exact ⟨c, cs ++ rest, by rw [hcs, List.cons_append], hc⟩

/-- Types with commas between them. -/
theorem readEach_types {x : Ty} {xs : List Ty} (h : ∀ c ∈ x :: xs, c.ReadBy type q)
    (hfuel : xs.length < fuel) {mark : Char} (hm : mark = ')' ∨ mark = ']') :
    readEach type ',' fuel ((join ", " ((x :: xs).map (·.spell q))).toList ++ mark :: rest) =
      some ((x :: xs).map (·.shown), mark :: rest) := by
  refine readEach_join Stops (by simp) (fun cs => .mark cs (.inl rfl)) hfuel
    (fun c hc => (h c hc).reads.read) (.mark rest ?_) ?_
  · rcases hm with rfl | rfl <;> simp
  · rcases hm with rfl | rfl <;> simp

theorem readArgs_bracketed {args : List Ty} (h : ∀ c ∈ args, c.ReadBy type q)
    (hfuel : args.length ≤ fuel) (hr : Stops rest) :
    readArgs type fuel ((bracketed (args.map (·.spell q))).toList ++ rest) =
      some (args.map (·.shown), rest) := by
  cases args with
  | nil =>
    rw [List.map_nil, bracketed, readArgs]
    · rfl
    · rintro cs rfl
      simpa using hr.head rfl
  | cons x xs =>
    have htext : (bracketed ((x :: xs).map (·.spell q))).toList ++ rest =
        '[' :: ((join ", " ((x :: xs).map (·.spell q))).toList ++ ']' :: rest) := by
      simp [bracketed]
    rw [htext, readArgs, readEach_types h hfuel (.inr rfl)]
    simp [expect_cons]

/-! ### Signatures -/

theorem Signature.IsLegible.slice_of_marked {s : Signature Ty} (hs : s.IsLegible) {m : Bool × Ty}
    (h : m ∈ markedParams s.variadic s.params) (hm : m.1 = true) : ∃ elem, m.2 = .slice elem := by
  obtain ⟨hv, hlast⟩ := (mem_markedParams h).2 hm
  obtain ⟨front, elem, hparams⟩ := hs hv
  rw [hparams, List.getLast?_concat, Option.some.injEq] at hlast
  exact ⟨elem, hlast.symm⟩

theorem Signature.IsLegible.any_marked {s : Signature Ty} (hs : s.IsLegible) :
    (markedParams s.variadic s.params).any (·.1) = s.variadic := by
  by_cases hempty : s.params = []
  · rw [hempty]
    cases hv : s.variadic with
    | false => rfl
    | true =>
      obtain ⟨front, elem, hparams⟩ := hs hv
      simp [hempty] at hparams
  · exact markedParams_any s.variadic hempty

theorem readParam_marked {m : Bool × Ty} (h : m.2.ReadBy type q)
    (hv : m.1 = true → ∃ elem, m.2 = .slice elem) (hr : Stops rest) :
    readParam type ((spellMarked q m).toList ++ rest) = some ((m.1, m.2.shown), rest) := by
  obtain ⟨marked, ty⟩ := m
  cases marked with
  | true =>
    obtain ⟨elem, rfl⟩ := hv rfl
    have helem := h elem (.head List.mem_cons_self (.refl elem))
    have htext : (spellMarked q (true, .slice elem)).toList ++ rest =
        '.' :: '.' :: '.' :: ((elem.spell q).toList ++ rest) := by simp [spellMarked]
    rw [htext, readParam, helem.read rest hr]
    rfl
  | false =>
    obtain ⟨c, cs, hcs, hc⟩ := h.reads.exists_cons rest
    have hread := h.reads.read rest hr
    have htext : (spellMarked q (false, ty)).toList ++ rest = c :: cs := hcs
    rw [hcs] at hread
    rw [htext, readParam, hread]
    · rfl
    · rintro tail htail
      obtain ⟨rfl, -⟩ := List.cons.inj htail
      exact startsType_ne hc (by decide +kernel) rfl

/-- The text of a parameter does not start with a parenthesis. -/
theorem spellMarked_ne {m : Bool × Ty} (h : m.2.ReadBy type q) (rest : List Char) :
    ((spellMarked q m).toList ++ rest).head? ≠ some ')' := by
  obtain ⟨marked, ty⟩ := m
  have hty : ((ty.spell q).toList ++ rest).head? ≠ some ')' := by
    obtain ⟨c, cs, hcs, hc⟩ := h.reads.exists_cons rest
    rw [hcs, List.head?_cons, ne_eq, Option.some.injEq]
    exact startsType_ne hc (by decide +kernel)
  cases marked with
  | false => exact hty
  | true =>
    cases ty with
    | slice elem => simp [spellMarked]
    | _ => exact hty

theorem readParams_spell {s : Signature Ty} (hs : s.IsLegible)
    (h : ∀ c ∈ s.params, c.ReadBy type q) (hfuel : s.params.length ≤ fuel) (rest : List Char) :
    readParams type fuel ('(' ::
        ((join ", " (Ty.spellParams q s.variadic s.params)).toList ++ ')' :: rest)) =
      some ((markedParams s.variadic s.params).map fun m => (m.1, m.2.shown), rest) := by
  rw [Ty.spellParams_eq]
  have hitem : ∀ m ∈ markedParams s.variadic s.params, ∀ rest, Stops rest →
      readParam type ((spellMarked q m).toList ++ rest) = some ((m.1, m.2.shown), rest) := by
    intro m hm rest hr
    exact readParam_marked (h m.2 (mem_markedParams hm).1) (hs.slice_of_marked hm) hr
  have hfirst : ∀ m ∈ markedParams s.variadic s.params, ∀ rest,
      ((spellMarked q m).toList ++ rest).head? ≠ some ')' :=
    fun m hm => spellMarked_ne (h m.2 (mem_markedParams hm).1)
  have hlength : (markedParams s.variadic s.params).length ≤ fuel := by
    rw [← List.length_map (·.2), markedParams_snd]
    exact hfuel
  generalize markedParams s.variadic s.params = ms at hitem hfirst hlength
  cases ms with
  | nil => rfl
  | cons x xs =>
    have hhead : ((join ", " ((x :: xs).map (spellMarked q))).toList ++ ')' :: rest).head? ≠
        some ')' := by
      obtain ⟨tail, htail⟩ := exists_join_cons ", " (spellMarked q x) (xs.map (spellMarked q))
        (')' :: rest)
      rw [List.map_cons, htail]
      exact hfirst x List.mem_cons_self tail
    have hread := readEach_join Stops (by simp : ", ".toList = [',', ' '])
      (fun cs => .mark cs (.inl rfl)) hlength hitem (.mark (c := ')') rest (by simp)) (by simp)
    rw [readParams, hread]
    · simp [expect_cons]
    · intro cs hcs
      rw [hcs] at hhead
      exact hhead rfl

theorem readResults_spell {results : List Ty} (h : ∀ c ∈ results, c.ReadBy type q)
    (hfuel : results.length ≤ fuel) (hr : Stops rest) :
    readResults type fuel ((spellResults (results.map (·.spell q))).toList ++ rest) =
      some (results.map (·.shown), rest) := by
  match results with
  | [] =>
    rw [List.map_nil, spellResults]
    cases hr with
    | nil => rfl
    | mark cs hc => rcases hc with rfl | rfl | rfl | rfl <;> rfl
    | @space c cs hc =>
      have hparen : c ≠ '(' := by rcases hc with rfl | rfl | rfl <;> decide
      have hends : startsType c = false := by rcases hc with rfl | rfl | rfl <;> decide +kernel
      simp [readResults, hparen, hends]
  | [result] =>
    have hresult := (h result List.mem_cons_self).reads
    obtain ⟨c, cs, hcs, hc⟩ := hresult.exists_cons rest
    have hread := hresult.read rest hr
    rw [hcs] at hread
    have htext : (spellResults ([result].map (·.spell q))).toList ++ rest = ' ' :: c :: cs := by
      simp [spellResults, hcs]
    rw [htext, readResults, if_neg (startsType_ne hc (by decide +kernel)), if_pos hc, hread]
    rfl
  | x :: y :: rs =>
    have htext : (spellResults ((x :: y :: rs).map (·.spell q))).toList ++ rest =
        ' ' :: '(' :: ((join ", " ((x :: y :: rs).map (·.spell q))).toList ++ ')' :: rest) := by
      simp [spellResults]
    rw [htext, readResults, if_pos rfl, readEach_types h hfuel (.inl rfl)]
    simp [expect_cons]

theorem readSignature_spell {s : Signature Ty} (hs : s.IsLegible)
    (h : ∀ c ∈ s.parts, c.ReadBy type q) (hparams : s.params.length ≤ fuel)
    (hresults : s.results.length ≤ fuel) (hr : Stops rest) :
    readSignature type fuel ((Signature.spell q s).toList ++ rest) =
      some (Signature.shown s, rest) := by
  have hp := readParams_spell (q := q) hs (fun c hc => h c (List.mem_append_left _ hc)) hparams
    ((spellResults (s.results.map (·.spell q))).toList ++ rest)
  have hrs := readResults_spell (fun c hc => h c (List.mem_append_right _ hc)) hresults hr
  rw [toList_signature, Ty.spellAll_eq, List.cons_append, List.append_assoc, List.cons_append,
    readSignature, hp]
  simp only [Option.bind_eq_bind, Option.bind_some, hrs, List.map_map, List.any_map]
  have hshown := congrArg (List.map Ty.shown) (markedParams_snd s.variadic s.params)
  rw [List.map_map] at hshown
  have hany := hs.any_marked
  obtain ⟨params, results, variadic⟩ := s
  rw [Signature.shown, Ty.shownAll_eq, Ty.shownAll_eq]
  simp only [Function.comp_def] at hshown hany ⊢
  rw [hshown, hany]

/-! ### Members -/

theorem readQuoted_append {body : List Char} (h : Layout.Quotable '"' body) (rest : List Char) :
    readQuoted (body ++ '"' :: rest) = some (body ++ ['"'], rest) := by
  induction h with
  | nil => rfl
  | @char c cs hquote hslash _ _ ih =>
    rw [List.cons_append, readQuoted]
    · simp [ih]
    · exact hquote
    · rintro d tail rfl
      exact absurd rfl hslash
  | escape _ _ ih => simp [readQuoted, ih]

theorem readRaw_append {body : List Char} (h : Layout.rawQuote ∉ body) (rest : List Char) :
    readRaw (body ++ Layout.rawQuote :: rest) = some (body ++ [Layout.rawQuote], rest) := by
  have hall : ∀ c ∈ body, (c != Layout.rawQuote) = true := by
    intro c hc
    rw [bne_iff_ne]
    rintro rfl
    exact h hc
  rw [readRaw, List.takeWhile_append_of_pos hall, List.dropWhile_append_of_pos hall]
  simp [expect_cons]

/-- The text of a tag, with the space before it. -/
def tagText : Option String → List Char
  | some tag => ' ' :: tag.toList
  | none => []

theorem stops_tagText {tag : Option String} (h : ∀ t ∈ tag, IsLiteral t) (hr : EndsMember rest) :
    Stops (tagText tag ++ rest) := by
  cases tag with
  | none => exact hr.stops
  | some t =>
    cases h t rfl with
    | quoted hbody => simpa [tagText] using Stops.space _ (.inr (.inl rfl))
    | raw hbody => simpa [tagText] using Stops.space _ (.inr (.inr rfl))

theorem readTag_tagText {tag : Option String} (h : ∀ t ∈ tag, IsLiteral t) (hr : EndsMember rest) :
    readTag (tagText tag ++ rest) = some (tag, rest) := by
  cases tag with
  | none =>
    cases hr with
    | next cs => rfl
    | last cs => rfl
  | some t =>
    cases h t rfl with
    | @quoted body hbody =>
      have hread := readQuoted_append hbody rest
      simp [tagText, readTag, hread]
    | @raw body hbody =>
      have hread := readRaw_append hbody rest
      have hne : Layout.rawQuote ≠ '"' := by decide
      simp [tagText, readTag, hread, hne]

theorem toList_field (f : Field Ty) :
    (Field.spell q f).toList =
      (if f.embedded then [] else f.name.toList ++ [' ']) ++ (f.type.spell q).toList ++
        tagText f.tag := by
  obtain ⟨name, ty, embedded, tag, package⟩ := f
  cases embedded <;> cases tag <;> simp [Field.spell, tagText]

theorem readFieldName_append {name : String} (hn : IsPlainName name) {text : String} {value : Ty}
    (h : ReadsAs type text value) (rest : List Char) :
    readFieldName (name.toList ++ ' ' :: (text.toList ++ rest)) =
      some (name, text.toList ++ rest) := by
  obtain ⟨c, cs, hcs, hc⟩ := h.exists_cons rest
  rw [hcs, readFieldName, readWord_cons hn.word (by decide)]
  simp [hn.not_keyword, hc]

theorem readField_spell {f : Field Ty} (hname : f.embedded = false → IsPlainName f.name)
    (htag : ∀ t ∈ f.tag, IsLiteral t) (h : f.type.ReadBy type q) (hr : EndsMember rest) :
    readField type ((Field.spell q f).toList ++ rest) = some (Field.shown f, rest) := by
  have hty := h.reads
  have hstops := stops_tagText htag hr
  have hread := hty.read _ hstops
  have htagged := readTag_tagText htag hr
  rw [toList_field, readField]
  obtain ⟨name, ty, embedded, tag, package⟩ := f
  cases embedded with
  | true =>
    have hopens := hty.opens.readFieldName hstops
    simp only [if_true, List.nil_append, List.append_assoc, hopens, hread, htagged,
      Option.bind_eq_bind, Option.bind_some]
    rfl
  | false =>
    have hfield := readFieldName_append (hname rfl) hty (tagText tag ++ rest)
    simp only [Bool.false_eq_true, if_false, List.append_assoc, List.cons_append, List.nil_append,
      hfield, hread, htagged, Option.bind_eq_bind, Option.bind_some]
    rfl

theorem readMethodName_append {name : String} (hn : IsPlainName name) (s : Signature Ty)
    (rest : List Char) :
    readMethodName (name.toList ++ ((Signature.spell q s).toList ++ rest)) =
      some (name, (Signature.spell q s).toList ++ rest) := by
  rw [toList_signature, List.cons_append, readMethodName, readWord_cons hn.word (by decide)]
  simp [hn.not_keyword]

/-- The text of a method or of an embedded type. -/
def memberText (q : PackageRef → String) : MethodSpec Ty ⊕ Ty → String :=
  Sum.elim (MethodSpec.spell q) (·.spell q)

theorem readMember_method {m : MethodSpec Ty} (hm : IsPlainName m.name ∧ m.signature.IsLegible)
    (h : ∀ c ∈ m.signature.parts, c.ReadBy type q) (hparams : m.signature.params.length ≤ fuel)
    (hresults : m.signature.results.length ≤ fuel) (hr : EndsMember rest) :
    readMember type fuel ((MethodSpec.spell q m).toList ++ rest) =
      some (.inl (MethodSpec.shown m), rest) := by
  have hread := readSignature_spell hm.2 h hparams hresults hr.stops
  obtain ⟨name, signature⟩ := m
  have hname := readMethodName_append (q := q) hm.1 signature rest
  rw [MethodSpec.spell, String.toList_append, List.append_assoc, readMember, hname]
  simp only [hread, Option.bind_eq_bind, Option.bind_some]
  rfl

theorem readMember_embedded {ty : Ty} (h : ty.ReadBy type q) (hr : EndsMember rest) :
    readMember type fuel ((ty.spell q).toList ++ rest) = some (.inr ty.shown, rest) := by
  have hty := h.reads
  rw [readMember, hty.opens.readMethodName hr.stops]
  simp only [hty.read rest hr.stops, Option.bind_eq_bind, Option.bind_some]

theorem readMembers_text {α β : Type} {member : Reader α} {text : β → String} {value : β → α}
    {items : List β} (hfuel : items.length ≤ fuel)
    (h : ∀ y ∈ items, ∀ rest, EndsMember rest →
      member ((text y).toList ++ rest) = some (value y, rest)) (rest : List Char) :
    readMembers fuel member (membersText (items.map text) ++ rest) =
      some (items.map value, rest) := by
  cases items with
  | nil => rfl
  | cons x xs =>
    have hread := readEach_join EndsMember (by simp : "; ".toList = [';', ' '])
      EndsMember.next hfuel h (.last rest) (by simp)
    have htext : membersText ((x :: xs).map text) ++ rest = '{' :: ' ' ::
        ((join "; " ((x :: xs).map text)).toList ++ ' ' :: '}' :: rest) := by
      simp [membersText]
    rw [htext, readMembers, hread]
    simp [expect_cons]

/-! ### Maps, arrays and channels -/

theorem readMap_text {key value : Ty} (hkey : key.ReadBy type q) (hvalue : value.ReadBy type q)
    (hr : Stops rest) :
    readMap type ('[' :: ((key.spell q).toList ++ ']' :: ((value.spell q).toList ++ rest))) =
      some (.map key.shown value.shown, rest) := by
  have hk := hkey.reads.read (']' :: ((value.spell q).toList ++ rest)) (.mark _ (by simp))
  have hv := hvalue.reads.read rest hr
  simp [readMap, expect_cons, hk, hv]

theorem readArray_slice {elem : Ty} (h : elem.ReadBy type q) (hr : Stops rest) :
    readArray type (']' :: ((elem.spell q).toList ++ rest)) = some (.slice elem.shown, rest) := by
  simp [readArray, h.reads.read rest hr]

theorem readArray_array {length : String} (hl : IsWord length) {elem : Ty} (h : elem.ReadBy type q)
    (hr : Stops rest) :
    readArray type (length.toList ++ ']' :: ((elem.spell q).toList ++ rest)) =
      some (.array length elem.shown, rest) := by
  have hread := h.reads.read rest hr
  have hword := readWord_cons hl (by decide : ']' ∈ wordEnds) ((elem.spell q).toList ++ rest)
  obtain ⟨c, cs, hcs, hc⟩ := hl.exists_cons
  rw [readArray, hword]
  · simp [expect_cons, hread]
  · rintro tail htail
    rw [hcs, List.cons_append] at htail
    obtain ⟨rfl, -⟩ := List.cons.inj htail
    exact absurd hc (by decide +kernel)

theorem readChannel_send {elem : Ty} (h : elem.ReadBy type q) (hr : Stops rest) :
    readChannel type ('<' :: '-' :: ' ' :: ((elem.spell q).toList ++ rest)) =
      some (.channel .send elem.shown, rest) := by
  simp [readChannel, h.reads.read rest hr]

theorem readChannel_parens {elem : Ty} (h : elem.ReadBy type q) (rest : List Char) :
    readChannel type (' ' :: '(' :: ((elem.spell q).toList ++ ')' :: rest)) =
      some (.channel .both elem.shown, rest) := by
  simp [readChannel, h.reads.read (')' :: rest) (.mark rest (by simp)), expect_cons]

theorem readChannel_both {elem : Ty} (h : elem.ReadBy type q) (hr : Stops rest) :
    readChannel type (' ' :: ((elem.spell q).toList ++ rest)) =
      some (.channel .both elem.shown, rest) := by
  have hread := h.reads.read rest hr
  obtain ⟨c, cs, hcs, hc⟩ := h.reads.exists_cons rest
  rw [hcs] at hread ⊢
  rw [readChannel, hread]
  · rfl
  · rintro tail htail
    obtain ⟨rfl, -⟩ := List.cons.inj htail
    exact startsType_ne hc (by decide +kernel) rfl

end Parts

end ResetMethods
