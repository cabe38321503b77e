import ResetMethods.Proofs.Printing.Readable

/-!
# ResetMethods.Proofs.Printing.RoundTrip

Every legible type is read back from its text.

* `Lexicon.Level`: a type that can be read if its parts can. There is one lemma for each form of
  types; `Level.read` has them all.
* `Lexicon.Knows.reads`: a type is read back from its text, whatever follows it.
* `Lexicon.shown_eq_of_spell_eq`: types with the same text show the same.
-/

namespace ResetMethods

/-! ## Names -/

namespace Lexicon

variable {L : Lexicon} {q : PackageRef → String} {n : Nat} {rest : List Char}

theorem readType_word {word : String} (hw : IsWord word) (cs : List Char) :
    L.readType (n + 1) (word.toList ++ cs) = L.readNamed (L.readType n) n (word.toList ++ cs) := by
  obtain ⟨c, tail, htail, hc⟩ := hw.exists_cons
  have hne : ∀ d, isWordChar d = false → c ≠ d := by
    rintro d hd rfl
    rw [hc] at hd
    cases hd
  rw [htail, List.cons_append, readType]
  · rintro cs hcs
    exact hne '*' (by decide +kernel) (List.cons.inj hcs).1
  · rintro cs hcs
    exact hne '[' (by decide +kernel) (List.cons.inj hcs).1
  · rintro cs hcs
    exact hne '<' (by decide +kernel) (List.cons.inj hcs).1

section Named

variable {type : Reader Ty} {fuel : Nat}

theorem readNamed_foreign {qualifier : String} (hq : IsWord qualifier) (cs : List Char) :
    L.readNamed type fuel (qualifier.toList ++ '.' :: cs) =
      L.readForeign type fuel qualifier cs := by
  rw [readNamed, readWord_cons hq (by decide)]
  rfl

theorem readNamed_unqualified {word : String} (hw : IsWord word) {cs : List Char}
    (hcs : ∀ c, cs.head? = some c → c ∈ wordEnds ∧ c ≠ '.') :
    L.readNamed type fuel (word.toList ++ cs) = L.readUnqualified type fuel word cs := by
  have hword := readWord_append hw fun c hc => not_word_of_mem (hcs c hc).1
  rw [readNamed, hword]
  split
  · rename_i heq
    obtain ⟨-, rfl⟩ := Prod.mk.inj heq
    exact absurd rfl (hcs '.' rfl).2
  · rename_i heq
    obtain ⟨rfl, rfl⟩ := Prod.mk.inj heq
    rfl

theorem readNamed_bare {name : String} (hn : IsPlainName name) {cs : List Char}
    (hcs : ∀ c, cs.head? = some c → c ∈ wordEnds ∧ c ≠ '.') :
    L.readNamed type fuel (name.toList ++ cs) = L.readBare type fuel name cs := by
  have hk := hn.not_keyword
  simp only [typeKeywords, List.mem_cons, List.not_mem_nil, or_false, not_or] at hk
  rw [readNamed_unqualified hn.word hcs]
  simp [readUnqualified, hk]

theorem head_bracketed (items : List String) (hr : Stops rest) {c : Char}
    (hc : ((bracketed items).toList ++ rest).head? = some c) : c ∈ wordEnds ∧ c ≠ '.' := by
  cases items with
  | nil => exact hr.ends hc
  | cons item items =>
    obtain rfl : '[' = c := by simpa [bracketed] using hc
    decide

theorem ofName?_eq_none {name : String} (h : isPredeclared name = false) :
    BasicKind.ofName? name = none ∧ name ≠ "error" := by
  simpa [isPredeclared] using h

/-- A name of the package that the text is written for, or the predeclared one of a type without a
package. -/
theorem readBare_named {name : String} (args : List Ty) (hk : BasicKind.ofName? name = none)
    (hp : name ∉ L.params) (hu : ¬ (L.host = "unsafe" ∧ name = "Pointer"))
    (h : ∀ c ∈ args, c.ReadBy type q) (hfuel : args.length ≤ fuel) (hr : Stops rest) :
    L.readBare type fuel name ((bracketed (args.map (·.spell q))).toList ++ rest) =
      some (.named ⟨if name = "error" then none else some ⟨L.host, ""⟩, name, args.map (·.shown)⟩,
        rest) := by
  simp only [readBare, hk, if_neg hp, if_neg hu, readArgs_bracketed h hfuel hr,
    Option.bind_eq_bind, Option.bind_some]

theorem readForeign_named {qualifier path name : String} (ho : L.owner qualifier = some path)
    (hn : IsWord name) (hu : ¬ (path = "unsafe" ∧ name = "Pointer")) (args : List Ty)
    (h : ∀ c ∈ args, c.ReadBy type q) (hfuel : args.length ≤ fuel) (hr : Stops rest) :
    L.readForeign type fuel qualifier
        (name.toList ++ ((bracketed (args.map (·.spell q))).toList ++ rest)) =
      some (.named ⟨some ⟨path, ""⟩, name, args.map (·.shown)⟩, rest) := by
  have hword := readWord_append hn fun c hc =>
    not_word_of_mem (head_bracketed (args.map (·.spell q)) hr hc).1
  simp only [readForeign, ho, hword, if_neg hu, readArgs_bracketed h hfuel hr,
    Option.bind_eq_bind, Option.bind_some]

end Named

/-! ## One level of a type -/

theorem toList_dot (qualifier : String) :
    (qualifier ++ ".").toList = qualifier.toList ++ ['.'] := by
  simp

theorem ofName?_pointer : BasicKind.ofName? "Pointer" = none := by decide +kernel

/-- A type that can be read, and `n` levels are enough for its parts. -/
structure Level (L : Lexicon) (q : PackageRef → String) (n : Nat) (ty : Ty) : Prop where
  apart : SetApart L.host L.params
  knows : L.Knows q ty
  size : sizeOf ty ≤ n + 1
  parts : ∀ c ∈ ty.children, c.ReadBy (L.readType n) q

theorem readType_unsafePointer (h : L.Level q n (.basic .unsafePointer)) (hr : Stops rest) :
    L.readType (n + 1) ((q .unsafePackage ++ "Pointer").toList ++ rest) =
      some (.basic .unsafePointer, rest) := by
  rw [String.toList_append, List.append_assoc]
  cases h.knows.reference rfl with
  | own htext hp =>
    have hhost : L.host = "unsafe" := hp.symm
    have hnot := h.apart.pointer hhost
    rw [htext, String.toList_empty, List.nil_append, readType_word isPlainName_pointer.word,
      readNamed_bare isPlainName_pointer fun _ => hr.ends, readBare, ofName?_pointer]
    simp [hnot, hhost]
  | @foreign qualifier hq htext ho =>
    have hword := hr.readWord isPlainName_pointer.word
    have hunsafe : L.owner qualifier = some "unsafe" := ho
    rw [htext, toList_dot, List.append_assoc, List.singleton_append, readType_word hq,
      readNamed_foreign hq, readForeign, hunsafe]
    simp only [Option.bind_eq_bind, Option.bind_some, hword, and_self, if_true]

theorem readType_basic {kind : BasicKind} (hu : kind ≠ .unsafePointer)
    (h : L.Level q n (.basic kind)) (hr : Stops rest) :
    L.readType (n + 1) (kind.name.toList ++ rest) = some (.basic kind, rest) := by
  have hs := h.knows.sound
  have hk := BasicKind.isPredeclared_of_ne hu hs.1 hs.2
  have hn := isPlainName_predeclared hk
  rw [readType_word hn.word, readNamed_bare hn fun _ => hr.ends, readBare,
    BasicKind.ofName?_name hk]

theorem readType_typeParam {name : String} (h : L.Level q n (.typeParam name)) (hr : Stops rest) :
    L.readType (n + 1) (name.toList ++ rest) = some (.typeParam name, rest) := by
  obtain ⟨hn, hp⟩ := h.knows.sound
  have hk := ofName?_eq_none (h.apart.predeclared name hp)
  rw [readType_word hn.word, readNamed_bare hn fun _ => hr.ends, readBare, hk.1]
  simp [hp]

theorem readType_error {args : List Ty} (h : L.Level q n (.named ⟨none, "error", args⟩))
    (hfuel : args.length ≤ n) (hr : Stops rest) :
    L.readType (n + 1)
        ("error".toList ++ ((bracketed (args.map (·.spell q))).toList ++ rest)) =
      some (.named ⟨none, "error", args.map (·.shown)⟩, rest) := by
  have hp : "error" ∉ L.params := by
    intro hmem
    have hnot := h.apart.predeclared "error" hmem
    revert hnot
    decide +kernel
  rw [readType_word isPlainName_error.word,
    readNamed_bare isPlainName_error fun c => head_bracketed (args.map (·.spell q)) hr,
    readBare_named args (by decide +kernel) hp (by simp) h.parts hfuel hr, if_pos rfl]

theorem readType_named {p : PackageRef} {name : String} {args : List Ty}
    (h : L.Level q n (.named ⟨some p, name, args⟩)) (hfuel : args.length ≤ n) (hr : Stops rest) :
    L.readType (n + 1) ((q p).toList ++
        (name.toList ++ ((bracketed (args.map (·.spell q))).toList ++ rest))) =
      some (.named ⟨some ⟨p.path, ""⟩, name, args.map (·.shown)⟩, rest) := by
  obtain ⟨hn, hunsafe, hlocal⟩ := h.knows.sound
  have hu : ¬ (p.path = "unsafe" ∧ name = "Pointer") := fun hboth => hunsafe hboth.1 hboth.2
  cases h.knows.reference rfl with
  | own htext hp =>
    obtain ⟨hparams, hdeclared⟩ := hlocal hp
    have hk := ofName?_eq_none hdeclared
    rw [hp] at hu
    rw [htext, String.toList_empty, List.nil_append, readType_word hn.word,
      readNamed_bare hn fun c => head_bracketed (args.map (·.spell q)) hr,
      readBare_named args hk.1 hparams hu h.parts hfuel hr, if_neg hk.2, hp]
  | foreign hq htext ho =>
    rw [htext, toList_dot, List.append_assoc, List.singleton_append, readType_word hq,
      readNamed_foreign hq, readForeign_named ho hn.word hu args h.parts hfuel hr]

variable (L) in
/-- A keyword, with a character behind it that cannot be in a name. -/
theorem readType_keyword (word : String) (c : Char) (cs : List Char) (hw : word ∈ typeKeywords)
    (hc : c ∈ wordEnds ∧ c ≠ '.') : L.readType (n + 1) (word.toList ++ c :: cs) =
      L.readUnqualified (L.readType n) n word (c :: cs) := by
  rw [readType_word (isWord_keyword hw), readNamed_unqualified (isWord_keyword hw)]
  intro d hd
  obtain rfl : c = d := by simpa using hd
  exact hc

theorem readType_pointer {elem : Ty} (h : L.Level q n (.pointer elem)) (hr : Stops rest) :
    L.readType (n + 1) ((Ty.spell q (.pointer elem)).toList ++ rest) =
      some (.pointer elem.shown, rest) := by
  have helem := h.parts elem List.mem_cons_self
  simp [toList_pointer, readType, helem.reads.read rest hr]

theorem readType_slice {elem : Ty} (h : L.Level q n (.slice elem)) (hr : Stops rest) :
    L.readType (n + 1) ((Ty.spell q (.slice elem)).toList ++ rest) =
      some (.slice elem.shown, rest) := by
  have helem := h.parts elem List.mem_cons_self
  rw [toList_slice, List.cons_append, readType]
  exact readArray_slice helem hr

theorem readType_array {length : String} {elem : Ty} (h : L.Level q n (.array length elem))
    (hr : Stops rest) : L.readType (n + 1) ((Ty.spell q (.array length elem)).toList ++ rest) =
      some (.array length elem.shown, rest) := by
  have helem := h.parts elem List.mem_cons_self
  rw [toList_array, List.cons_append, readType, List.append_assoc, List.cons_append]
  exact readArray_array h.knows.sound helem hr

theorem readType_map {key value : Ty} (h : L.Level q n (.map key value)) (hr : Stops rest) :
    L.readType (n + 1) ((Ty.spell q (.map key value)).toList ++ rest) =
      some (.map key.shown value.shown, rest) := by
  have hkey := h.parts key List.mem_cons_self
  have hvalue := h.parts value (List.mem_cons_of_mem _ List.mem_cons_self)
  rw [toList_map, List.append_assoc, List.cons_append, List.append_assoc, List.cons_append,
    L.readType_keyword "map" '[' _ (by decide) (by decide)]
  exact readMap_text hkey hvalue hr

theorem readType_channel {direction : Direction} {elem : Ty}
    (h : L.Level q n (.channel direction elem)) (hr : Stops rest) :
    L.readType (n + 1) ((Ty.spell q (.channel direction elem)).toList ++ rest) =
      some (.channel direction elem.shown, rest) := by
  have helem := h.parts elem List.mem_cons_self
  rw [Ty.spell]
  cases direction with
  | send =>
    rw [toList_send, List.append_assoc, List.cons_append,
      L.readType_keyword "chan" '<' _ (by decide) (by decide)]
    exact readChannel_send helem hr
  | receive =>
    rw [toList_receive]
    simp [readType, helem.reads.read rest hr]
  | both =>
    rcases toList_both (elem.spell q) with htext | htext
    · rw [htext, List.append_assoc, List.cons_append,
        L.readType_keyword "chan" ' ' _ (by decide) (by decide), List.cons_append,
        List.append_assoc]
      exact readChannel_parens helem rest
    · rw [htext, List.append_assoc, List.cons_append,
        L.readType_keyword "chan" ' ' _ (by decide) (by decide)]
      exact readChannel_both helem hr

theorem readType_function {s : Signature Ty} (h : L.Level q n (.function s))
    (hparams : s.params.length ≤ n) (hresults : s.results.length ≤ n) (hr : Stops rest) :
    L.readType (n + 1) ((Ty.spell q (.function s)).toList ++ rest) =
      some (.function (Signature.shown s), rest) := by
  have hread := readSignature_spell h.knows.sound h.parts hparams hresults hr
  rw [toList_signature, List.cons_append] at hread
  rw [toList_function, toList_signature, List.append_assoc, List.cons_append,
    L.readType_keyword "func" '(' _ (by decide) (by decide)]
  simp only [readUnqualified, hread, Option.bind_eq_bind, Option.bind_some]
  rfl

/-- The keyword of a struct or interface type, with the members behind it. -/
theorem readType_members {keyword : String} (hk : keyword ∈ typeKeywords) (items : List String)
    (rest : List Char) :
    L.readType (n + 1) ((spellMembers keyword items).toList ++ rest) =
      L.readUnqualified (L.readType n) n keyword (membersText items ++ rest) := by
  rw [toList_members, List.append_assoc]
  cases items with
  | nil => exact L.readType_keyword keyword '{' _ hk (by decide)
  | cons item items => exact L.readType_keyword keyword '{' _ hk (by decide)

theorem readType_struct {fields : List (Field Ty)} (h : L.Level q n (.struct fields))
    (hfuel : fields.length ≤ n) (rest : List Char) :
    L.readType (n + 1) ((Ty.spell q (.struct fields)).toList ++ rest) =
      some (.struct (fields.map Field.shown), rest) := by
  have hfield : ∀ f ∈ fields, ∀ rest, EndsMember rest →
      readField (L.readType n) ((Field.spell q f).toList ++ rest) = some (Field.shown f, rest) := by
    intro f hf rest hr
    obtain ⟨hname, htag⟩ := h.knows.sound f hf
    exact readField_spell hname htag (h.parts f.type (List.mem_map_of_mem hf)) hr
  rw [Ty.spell, Ty.spellFields_eq, readType_members (by decide)]
  simp only [readUnqualified, readMembers_text hfuel hfield rest, Option.bind_eq_bind,
    Option.bind_some]
  rfl

theorem readType_interface {methods : List (MethodSpec Ty)} {embeds : List Ty}
    (h : L.Level q n (.interface methods embeds)) (hfuel : embeds.length + methods.length ≤ n)
    (hsignature : ∀ m ∈ methods, m.signature.params.length ≤ n ∧ m.signature.results.length ≤ n)
    (rest : List Char) :
    L.readType (n + 1) ((Ty.spell q (.interface methods embeds)).toList ++ rest) =
      some (.interface (methods.map MethodSpec.shown) (embeds.map (·.shown)), rest) := by
  let items : List (MethodSpec Ty ⊕ Ty) := embeds.map .inr ++ methods.map .inl
  have hitem : ∀ item ∈ items, ∀ rest, EndsMember rest →
      readMember (L.readType n) n ((memberText q item).toList ++ rest) =
        some (item.map MethodSpec.shown (·.shown), rest) := by
    intro item hitem rest hr
    rcases List.mem_append.1 hitem with hitem | hitem
    · obtain ⟨ty, hty, rfl⟩ := List.mem_map.1 hitem
      exact readMember_embedded (h.parts ty (List.mem_append_left _ hty)) hr
    · obtain ⟨m, hm, rfl⟩ := List.mem_map.1 hitem
      have hparts : ∀ c ∈ m.signature.parts, c.ReadBy (L.readType n) q := fun c hc =>
        h.parts c (List.mem_append_right _ (List.mem_flatMap.2 ⟨m, hm, hc⟩))
      exact readMember_method (h.knows.sound m hm) hparts (hsignature m hm).1 (hsignature m hm).2 hr
  have hlength : items.length ≤ n := by simpa [items] using hfuel
  have htext : Ty.spellAll q embeds ++ Ty.spellMethods q methods = items.map (memberText q) := by
    simp [items, Ty.spellAll_eq, Ty.spellMethods_eq, memberText, Function.comp_def]
  rw [Ty.spell, htext, readType_members (by decide)]
  have hmethods : (items.map (Sum.map MethodSpec.shown (·.shown))).filterMap Sum.getLeft? =
      methods.map MethodSpec.shown := by
    simp [items, Function.comp_def]
  have hembeds : (items.map (Sum.map MethodSpec.shown (·.shown))).filterMap Sum.getRight? =
      embeds.map (·.shown) := by
    simp [items, Function.comp_def]
  have hread := readMembers_text hlength hitem rest
  simp only [readUnqualified, hread, Option.bind_eq_bind, Option.bind_some]
  simp [hmethods, hembeds]

end Lexicon

/-! ## Every level -/

theorem length_lt_sizeOf {α : Type} [SizeOf α] (xs : List α) : xs.length < sizeOf xs := by
  induction xs with
  | nil => simp
  | cons x xs ih =>
    rw [List.length_cons, List.cons.sizeOf_spec]
    omega

theorem Signature.length_le (s : Signature Ty) :
    s.params.length ≤ sizeOf s ∧ s.results.length ≤ sizeOf s := by
  obtain ⟨params, results, variadic⟩ := s
  have hparams := length_lt_sizeOf params
  have hresults := length_lt_sizeOf results
  simp only [Signature.mk.sizeOf_spec]
  omega

theorem Ty.sizeOf_le_of_mentions {ty u : Ty} (h : ty.Mentions u) : sizeOf u ≤ sizeOf ty := by
  induction h with
  | refl => exact Nat.le_refl _
  | tail _ hc ih => exact Nat.le_trans (Nat.le_of_lt (sizeOf_lt_of_mem_children hc)) ih

namespace Lexicon

variable {L : Lexicon} {q : PackageRef → String} {n : Nat} {ty : Ty}

/-- A type of which one level can be read. -/
theorem Level.read (h : L.Level q n ty) {rest : List Char} (hr : Stops rest) :
    L.readType (n + 1) ((ty.spell q).toList ++ rest) = some (ty.shown, rest) := by
  have hsize := h.size
  cases ty with
  | basic kind =>
    by_cases hu : kind = .unsafePointer
    · subst hu
      exact readType_unsafePointer h hr
    · rw [Ty.spell_basic q hu]
      exact readType_basic hu h hr
  | named name =>
    obtain ⟨package, name, args⟩ := name
    have hlength := length_lt_sizeOf args
    simp only [Ty.named.sizeOf_spec, Named.mk.sizeOf_spec] at hsize
    rw [Ty.spell, Named.spell, Ty.spellAll_eq, String.toList_append, String.toList_append,
      List.append_assoc, List.append_assoc, Ty.shown, Named.shown, Ty.shownAll_eq]
    cases package with
    | none =>
      obtain rfl : name = "error" := h.knows.sound
      exact readType_error h (by omega) hr
    | some p => exact readType_named h (by omega) hr
  | pointer elem => exact readType_pointer h hr
  | slice elem => exact readType_slice h hr
  | array length elem => exact readType_array h hr
  | map key value => exact readType_map h hr
  | channel direction elem => exact readType_channel h hr
  | function s =>
    have hlength := s.length_le
    simp only [Ty.function.sizeOf_spec] at hsize
    exact readType_function h (by omega) (by omega) hr
  | struct fields =>
    have hlength := length_lt_sizeOf fields
    simp only [Ty.struct.sizeOf_spec] at hsize
    rw [Ty.shown, Ty.shownFields_eq]
    exact readType_struct h (by omega) rest
  | interface methods embeds =>
    have hmethods := length_lt_sizeOf methods
    have hembeds := length_lt_sizeOf embeds
    simp only [Ty.interface.sizeOf_spec] at hsize
    have hsignature : ∀ m ∈ methods,
        m.signature.params.length ≤ n ∧ m.signature.results.length ≤ n := by
      intro m hm
      have hmem := List.sizeOf_lt_of_mem hm
      obtain ⟨name, s⟩ := m
      have hlength := s.length_le
      simp only [MethodSpec.mk.sizeOf_spec] at hmem
      constructor <;> simp only <;> omega
    rw [Ty.shown, Ty.shownMethods_eq, Ty.shownAll_eq]
    exact readType_interface h (by omega) hsignature rest
  | typeParam name => exact readType_typeParam h hr

/-- Every type that the lexicon knows is read back from its text, whatever follows it. -/
theorem Knows.reads (ha : SetApart L.host L.params) (h : L.Knows q ty) (hn : sizeOf ty ≤ n) :
    ReadsAs (L.readType n) (ty.spell q) ty.shown := by
  -- on the levels and not on the parts: a variadic parameter is read by the element of its slice
  induction n generalizing ty with
  | zero =>
    exfalso
    cases ty <;> simp at hn
  | succ n ih =>
    refine ⟨h.opens, fun rest hr => Level.read ⟨ha, h, hn, fun c hc u hu => ?_⟩ hr⟩
    refine ih (h.of_mentions (.head hc hu)) ?_
    have hsmaller := Ty.sizeOf_lt_of_mem_children hc
    have hle := Ty.sizeOf_le_of_mentions hu
    omega

/-- A text that two types have shows the same of both, even where their qualifiers were chosen at
different times. -/
theorem shown_eq_of_spell_eq (ha : SetApart L.host L.params) {q' : PackageRef → String} {ty' : Ty}
    (h : L.Knows q ty) (h' : L.Knows q' ty') (htext : ty.spell q = ty'.spell q') :
    ty.shown = ty'.shown := by
  have hread := (h.reads ha (Nat.le_max_left _ (sizeOf ty'))).read [] .nil
  have hread' := (h'.reads ha (Nat.le_max_right (sizeOf ty) _)).read [] .nil
  rw [htext, hread'] at hread
  exact (Prod.mk.inj (Option.some.inj hread)).1.symm

end Lexicon
end ResetMethods
