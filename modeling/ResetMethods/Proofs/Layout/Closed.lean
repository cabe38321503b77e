import ResetMethods.Proofs.Layout.Words

/-!
# ResetMethods.Proofs.Layout.Closed

Text of one line that the scanner of layouts passes without a trace.

* `Neutral`: the scanner is after the text as it was before it.
* `Bounded`: so it is unless the next character makes a comment of a slash at the end.
* `Neutral.append`, `Bounded.append`, `Bounded.enclosed`: the ways in which text is put together.
* `neutral_literal`: a literal whose delimiters match is neutral.
* `Closed`: a line without comments whose delimiters and quotes are closed within it. Such text is
  bounded (`Closed.bounded`).
-/

namespace ResetMethods
namespace Layout

/-- Whether the text may follow a slash without making a comment of it. -/
def parts (rest : List Char) : Prop := rest.head? ≠ some '/' ∧ rest.head? ≠ some '*'

instance (rest : List Char) : Decidable (parts rest) :=
  inferInstanceAs (Decidable (rest.head? ≠ some '/' ∧ rest.head? ≠ some '*'))

/-- Text of one line that changes nothing for the scanner. -/
structure Neutral (text : List Char) : Prop where
  oneLine : '\n' ∉ text
  scan : ∀ (line : Nat) (stack rest : List Char),
    scanCode line stack (text ++ rest) = scanCode line stack rest

/-- Text of one line that changes nothing for the scanner, though it may end in a slash. -/
structure Bounded (text : List Char) : Prop where
  oneLine : '\n' ∉ text
  scan : ∀ (line : Nat) (stack rest : List Char), parts rest →
    scanCode line stack (text ++ rest) = scanCode line stack rest

theorem isPlain_iff {c : Char} : isPlain c = true ↔
    c ≠ '/' ∧ c ≠ rawQuote ∧ c ≠ '"' ∧ c ≠ '\'' ∧ isOpener c = false ∧ openerOf? c = none ∧
      c ≠ '\n' := by
  simp only [isPlain, Bool.and_eq_true, bne_iff_ne, ne_eq, Bool.not_eq_true',
    Option.isNone_iff_eq_none, and_assoc]

theorem scanCode_plain {c : Char} (h : isPlain c = true) (line : Nat) (stack cs : List Char) :
    scanCode line stack (c :: cs) = scanCode line stack cs := by
  obtain ⟨h1, h2, h3, h4, h5, h6, -⟩ := isPlain_iff.1 h
  rw [scanCode.eq_def]
  split
  · simp_all
  · simp_all
  · simp_all
  · rename_i c' cs' _ _ heq
    cases heq
    rw [if_neg h2, if_neg (by simp [h3, h4]), if_neg (by simp [h5]), h6]

theorem scanCode_opener {c : Char} (h : isOpener c = true) (line : Nat) (stack cs : List Char) :
    scanCode line stack (c :: cs) = scanCode line (c :: stack) cs := by
  have hc : c = '{' ∨ c = '(' ∨ c = '[' := by simpa [isOpener, or_assoc] using h
  obtain rfl | rfl | rfl := hc
  all_goals
    rw [scanCode.eq_def]
    simp [rawQuote, isOpener]

theorem scanCode_closer {c opener : Char} (h : openerOf? c = some opener) (line : Nat)
    (stack cs : List Char) :
    scanCode line (opener :: stack) (c :: cs) = scanCode line stack cs := by
  have hc : c = '}' ∧ opener = '{' ∨ c = ')' ∧ opener = '(' ∨ c = ']' ∧ opener = '[' := by
    unfold openerOf? at h
    split at h
    · cases h; exact .inl ⟨rfl, rfl⟩
    · cases h; exact .inr (.inl ⟨rfl, rfl⟩)
    · cases h; exact .inr (.inr ⟨rfl, rfl⟩)
    · cases h
  obtain ⟨rfl, rfl⟩ | ⟨rfl, rfl⟩ | ⟨rfl, rfl⟩ := hc
  all_goals
    rw [scanCode.eq_def]
    simp [rawQuote, isOpener, openerOf?]

/-! ## Putting text together -/

section Compose

variable {a b text : List Char} {c opener : Char}

theorem Neutral.bounded (h : Neutral text) : Bounded text :=
  ⟨h.oneLine, fun line stack rest _ => h.scan line stack rest⟩

theorem Neutral.nil : Neutral [] := ⟨by simp, fun _ _ _ => rfl⟩

theorem Neutral.append (ha : Neutral a) (hb : Neutral b) : Neutral (a ++ b) := by
  refine ⟨by simp [ha.oneLine, hb.oneLine], fun line stack rest => ?_⟩
  rw [List.append_assoc, ha.scan, hb.scan]

theorem Neutral.concat {s t : String} (hs : Neutral s.toList) (ht : Neutral t.toList) :
    Neutral (s ++ t).toList := by
  rw [String.toList_append]
  exact hs.append ht

theorem Neutral.of_append (ha : Neutral a) (h : Neutral (a ++ b)) : Neutral b := by
  refine ⟨fun hm => h.oneLine (List.mem_append_right _ hm), fun line stack rest => ?_⟩
  have hs := h.scan line stack rest
  rwa [List.append_assoc, ha.scan] at hs

/-- Bounded text goes before text that does not start like the rest of a comment. -/
theorem Bounded.append (ha : Bounded a) (hb : Bounded b) (hn : b ≠ []) (hp : parts b) :
    Bounded (a ++ b) := by
  refine ⟨by simp [ha.oneLine, hb.oneLine], fun line stack rest hr => ?_⟩
  have hpr : parts (b ++ rest) := by
    obtain ⟨d, b, rfl⟩ := List.exists_cons_of_ne_nil hn
    exact hp
  rw [List.append_assoc, ha.scan line stack (b ++ rest) hpr, hb.scan line stack rest hr]

theorem Neutral.append_bounded (ha : Neutral a) (hb : Bounded b) : Bounded (a ++ b) := by
  refine ⟨by simp [ha.oneLine, hb.oneLine], fun line stack rest hr => ?_⟩
  rw [List.append_assoc, ha.scan, hb.scan line stack rest hr]

theorem Bounded.append_neutral (ha : Bounded a) (hb : Neutral b) (hn : b ≠ []) (hp : parts b) :
    Neutral (a ++ b) := by
  refine ⟨by simp [ha.oneLine, hb.oneLine], fun line stack rest => ?_⟩
  have hpr : parts (b ++ rest) := by
    obtain ⟨d, b, rfl⟩ := List.exists_cons_of_ne_nil hn
    exact hp
  rw [List.append_assoc, ha.scan line stack (b ++ rest) hpr, hb.scan]

theorem neutral_of_plain (h : ∀ c ∈ text, isPlain c = true) : Neutral text := by
  constructor
  · intro hm
    exact (isPlain_iff.1 (h _ hm)).2.2.2.2.2.2 rfl
  · intro line stack rest
    induction text with
    | nil => rfl
    | cons c text ih =>
      obtain ⟨hc, h⟩ := List.forall_mem_cons.1 h
      rw [List.cons_append, scanCode_plain hc, ih h]

/-- A closer is none of the characters that go on with a comment. -/
theorem parts_closer (h : openerOf? c = some opener) (rest : List Char) : parts (c :: rest) := by
  constructor
  · intro hc
    cases hc
    cases h
  · intro hc
    cases hc
    cases h

theorem closer_ne_newline (h : openerOf? c = some opener) : c ≠ '\n' := by
  rintro rfl
  cases h

theorem isOpener_of_openerOf? (h : openerOf? c = some opener) : isOpener opener = true := by
  unfold openerOf? at h
  split at h <;> cases h <;> rfl

theorem opener_ne_newline (h : isOpener c = true) : c ≠ '\n' := by
  rintro rfl
  cases h

/-- Text in a pair of delimiters. -/
theorem Bounded.enclosed (h : Bounded text) (hc : openerOf? c = some opener) :
    Neutral (opener :: text ++ [c]) := by
  have ho := isOpener_of_openerOf? hc
  constructor
  · have hn := opener_ne_newline ho
    have hn' := closer_ne_newline hc
    simp [h.oneLine, hn.symm, hn'.symm]
  · intro line stack rest
    rw [List.cons_append, List.cons_append, List.append_assoc, List.singleton_append,
      scanCode_opener ho, h.scan line _ _ (parts_closer hc _), scanCode_closer hc]

end Compose

/-- Whether a text without quotes and slashes closes what `stack` holds and what it opens itself. -/
def balances (stack : List Char) : List Char → Bool
  | [] => stack.isEmpty
  | c :: cs =>
    if isPlain c then balances stack cs
    else if isOpener c then balances (c :: stack) cs
    else
      match openerOf? c, stack with
      | some opener, top :: below => top == opener && balances below cs
      | _, _ => false

theorem balances_cons {stack cs : List Char} {c : Char} (h : balances stack (c :: cs) = true) :
    (isPlain c = true ∧ balances stack cs = true) ∨
      (isOpener c = true ∧ balances (c :: stack) cs = true) ∨
      ∃ opener below, openerOf? c = some opener ∧ stack = opener :: below ∧
        balances below cs = true := by
  unfold balances at h
  split at h
  · rename_i hplain
    exact .inl ⟨hplain, h⟩
  · split at h
    · rename_i hopener
      exact .inr (.inl ⟨hopener, h⟩)
    · cases ho : openerOf? c with
      | none => simp [ho] at h
      | some opener =>
        cases stack with
        | nil => simp [ho] at h
        | cons top below =>
          simp only [ho, Bool.and_eq_true, beq_iff_eq] at h
          obtain ⟨rfl, h⟩ := h
          exact .inr (.inr ⟨_, below, rfl, rfl, h⟩)

theorem oneLine_of_balances {text opened : List Char} (h : balances opened text = true) :
    '\n' ∉ text := by
  induction text generalizing opened with
  | nil => simp
  | cons c cs ih =>
    rw [List.mem_cons, not_or]
    obtain ⟨hc, hb⟩ | ⟨hc, hb⟩ | ⟨opener, below, hc, rfl, hb⟩ := balances_cons h
    · exact ⟨(isPlain_iff.1 hc).2.2.2.2.2.2.symm, ih hb⟩
    · exact ⟨(opener_ne_newline hc).symm, ih hb⟩
    · exact ⟨(closer_ne_newline hc).symm, ih hb⟩

theorem scanCode_of_balances {text opened : List Char} (h : balances opened text = true)
    (line : Nat) (stack rest : List Char) :
    scanCode line (opened ++ stack) (text ++ rest) = scanCode line stack rest := by
  induction text generalizing opened with
  | nil =>
    rw [List.isEmpty_iff.1 h]
    rfl
  | cons c cs ih =>
    rw [List.cons_append]
    obtain ⟨hc, hb⟩ | ⟨hc, hb⟩ | ⟨opener, below, hc, rfl, hb⟩ := balances_cons h
    · rw [scanCode_plain hc, ih hb]
    · rw [scanCode_opener hc]
      exact ih hb
    · rw [List.cons_append, scanCode_closer hc, ih hb]

/-- A literal text, by evaluation. -/
theorem neutral_literal {text : String} (h : balances [] text.toList = true) :
    Neutral text.toList :=
  ⟨oneLine_of_balances h, fun line stack rest => scanCode_of_balances h line stack rest⟩

/-! ## Quotes -/

/-- What may stand between two quotes on a line. -/
inductive Quotable (quote : Char) : List Char → Prop where
  | nil : Quotable quote []
  | char {c : Char} {cs : List Char} :
      c ≠ quote → c ≠ '\\' → c ≠ '\n' → Quotable quote cs → Quotable quote (c :: cs)
  | escape {c : Char} {cs : List Char} :
      c ≠ '\n' → Quotable quote cs → Quotable quote ('\\' :: c :: cs)

section Quotes

variable {quote : Char} {text : List Char}

theorem Quotable.oneLine (h : Quotable quote text) : '\n' ∉ text := by
  induction h with
  | nil => simp
  | char _ _ hn _ ih => simp [ih, hn.symm]
  | escape hn _ ih => simp [ih, hn.symm]

theorem Quotable.scan (h : Quotable quote text) (hq : quote ≠ '\\') (line : Nat)
    (stack rest : List Char) :
    scanQuoted line stack quote (text ++ quote :: rest) = scanCode line stack rest := by
  induction h with
  | nil =>
    rw [List.nil_append, scanQuoted.eq_def]
    split
    · simp_all
    · simp_all
    · simp_all
    · rename_i heq
      cases heq
      simp
  | char hc hb _ _ ih =>
    rw [List.cons_append, scanQuoted.eq_def]
    split
    · simp_all
    · simp_all
    · simp_all
    · rename_i heq
      cases heq
      rw [if_neg hc, ih]
  | escape _ _ ih =>
    rw [List.cons_append, List.cons_append, scanQuoted.eq_def]
    exact ih

/-- A literal in double or single quotes. -/
theorem Quotable.neutral (h : Quotable quote text) (hq : quote = '"' ∨ quote = '\'') :
    Neutral (quote :: text ++ [quote]) := by
  have hb : quote ≠ '\\' := by
    obtain rfl | rfl := hq <;> decide
  have hn : quote ≠ '\n' := by
    obtain rfl | rfl := hq <;> decide
  constructor
  · simp [h.oneLine, hn.symm]
  · intro line stack rest
    rw [List.cons_append, List.cons_append, List.append_assoc, List.singleton_append]
    have hs := h.scan hb line stack rest
    obtain rfl | rfl := hq
    all_goals
      rw [scanCode.eq_def]
      simpa [rawQuote] using hs

theorem scanRaw_append (h : rawQuote ∉ text) (line : Nat) (stack rest : List Char) :
    scanRaw line stack (text ++ rawQuote :: rest) = scanCode line stack rest := by
  induction text with
  | nil => rw [List.nil_append, scanRaw, if_pos rfl]
  | cons c text ih =>
    have hc : c ≠ rawQuote := by
      rintro rfl
      exact h List.mem_cons_self
    rw [List.cons_append, scanRaw, if_neg hc, ih fun hm => h (List.mem_cons_of_mem _ hm)]

theorem neutral_raw (h : rawQuote ∉ text) (hn : '\n' ∉ text) :
    Neutral (rawQuote :: text ++ [rawQuote]) := by
  constructor
  · simp [hn, rawQuote]
  · intro line stack rest
    rw [List.cons_append, List.cons_append, List.append_assoc, List.singleton_append,
      scanCode.eq_def]
    simpa [rawQuote] using scanRaw_append h line stack rest

end Quotes

/-! ## Closed text -/

/-- One line without comments, its delimiters and quotes closed within it. -/
inductive Closed : List Char → Prop where
  | nil : Closed []
  | char {c : Char} {cs : List Char} : isPlain c = true → Closed cs → Closed (c :: cs)
  | slash {cs : List Char} : parts cs → Closed cs → Closed ('/' :: cs)
  | group {opener c : Char} {text cs : List Char} :
      openerOf? c = some opener → Closed text → Closed cs → Closed (opener :: text ++ c :: cs)
  | quoted {quote : Char} {text cs : List Char} :
      quote = '"' ∨ quote = '\'' → Quotable quote text → Closed cs →
      Closed (quote :: text ++ quote :: cs)
  | raw {text cs : List Char} :
      rawQuote ∉ text → '\n' ∉ text → Closed cs → Closed (rawQuote :: text ++ rawQuote :: cs)

theorem scanCode_slash {cs : List Char} (h : parts cs) (line : Nat) (stack : List Char) :
    scanCode line stack ('/' :: cs) = scanCode line stack cs := by
  rw [scanCode.eq_def]
  split
  · simp_all
  · simp_all [parts]
  · simp_all [parts]
  · rename_i heq
    cases heq
    simp [rawQuote, isOpener, openerOf?]

theorem Closed.bounded {text : List Char} (h : Closed text) : Bounded text := by
  induction h with
  | nil => exact Neutral.nil.bounded
  | @char c cs hc _ ih =>
    have hn : Neutral [c] := neutral_of_plain (by simpa using hc)
    exact hn.append_bounded ih
  | @slash cs hp _ ih =>
    refine ⟨by simpa using ih.oneLine, fun line stack rest hr => ?_⟩
    have hpr : parts (cs ++ rest) := by
      cases cs with
      | nil => exact hr
      | cons d cs => exact hp
    rw [List.cons_append, scanCode_slash hpr, ih.scan line stack rest hr]
  | group hc _ _ iht ihc =>
    have h := (iht.enclosed hc).append_bounded ihc
    simpa using h
  | quoted hq ht _ ih =>
    have h := (ht.neutral hq).append_bounded ih
    simpa using h
  | raw ht hn _ ih =>
    have h := (neutral_raw ht hn).append_bounded ih
    simpa using h

end Layout
end ResetMethods
