import ResetMethods.Layout.Canonical
import ResetMethods.Proofs.Layout.Closed
import ResetMethods.Proofs.Layout.Words

/-!
# ResetMethods.Proofs.Layout.Reading

The verdict of the layout on a text, read line by line and character by character.

* `scanLines`: what scanning some lines comes to, without a word on how they are laid out.
* `scanCode_trim`: white space at either end of a line of code means nothing to the scanner.
* `verdict`: the verdict on a text that is cut at its line feeds and nowhere else.
* `canonical_verdict`: the layout comes to the same verdict. Neither trimming nor the carriage
  return of a line break nor the blank line behind the last line break makes a difference.
* `verdict_append`, `verdict_newline`: the verdict on the rest of a text, some characters on.
-/

namespace ResetMethods
namespace Layout

open Text (lines pieces trim trimStart trimEnd isBlank)

/-! ## The next thing in code -/

/-- A character that starts no token of its own. A slash is one unless a comment follows. -/
structure IsOrdinary (c : Char) : Prop where
  raw : c ≠ rawQuote
  double : c ≠ '"'
  single : c ≠ '\''
  opener : isOpener c = false
  closer : openerOf? c = none

/-- What code goes on with. -/
inductive Front : List Char → Prop where
  | lineComment (cs : List Char) : Front ('/' :: '/' :: cs)
  | blockComment (cs : List Char) : Front ('/' :: '*' :: cs)
  | rawString (cs : List Char) : Front (rawQuote :: cs)
  | quoted {quote : Char} (cs : List Char) : quote = '"' ∨ quote = '\'' → Front (quote :: cs)
  | opener {c : Char} (cs : List Char) : isOpener c = true → Front (c :: cs)
  | closer {c opener : Char} (cs : List Char) : openerOf? c = some opener → Front (c :: cs)
  | ordinary {c : Char} {cs : List Char} : IsOrdinary c → (c = '/' → parts cs) → Front (c :: cs)

theorem front (c : Char) (cs : List Char) : Front (c :: cs) := by
  by_cases hraw : c = rawQuote
  · rw [hraw]
    exact .rawString cs
  by_cases hquote : c = '"' ∨ c = '\''
  · exact .quoted cs hquote
  rw [not_or] at hquote
  cases hopener : isOpener c with
  | true => exact .opener cs hopener
  | false =>
    cases hcloser : openerOf? c with
    | some opener => exact .closer cs hcloser
    | none =>
      have hc : IsOrdinary c := ⟨hraw, hquote.1, hquote.2, hopener, hcloser⟩
      by_cases hslash : c = '/' → parts cs
      · exact .ordinary hc hslash
      · obtain ⟨rfl, hparts⟩ := Classical.not_imp.1 hslash
        cases cs with
        | nil => exact absurd ⟨nofun, nofun⟩ hparts
        | cons d cs =>
          by_cases hd : d = '/'
          · rw [hd]
            exact .lineComment cs
          by_cases hd' : d = '*'
          · rw [hd']
            exact .blockComment cs
          · exact absurd ⟨by simpa using hd, by simpa using hd'⟩ hparts

variable {n : Nat} {stack cs : List Char} {c : Char}

theorem IsOrdinary.scanCode (hc : IsOrdinary c) (hs : c = '/' → parts cs) (n : Nat)
    (stack : List Char) : scanCode n stack (c :: cs) = Layout.scanCode n stack cs := by
  rw [scanCode.eq_def]
  split
  · simp_all
  · simp_all [parts]
  · simp_all [parts]
  · rename_i heq
    cases heq
    rw [if_neg hc.raw, if_neg (by simp [hc.double, hc.single]), if_neg (by simp [hc.opener]),
      hc.closer]

theorem scanCode_raw (n : Nat) (stack cs : List Char) :
    scanCode n stack (rawQuote :: cs) = scanRaw n stack cs := by
  rw [scanCode.eq_def]
  simp [rawQuote]

theorem scanCode_quote {quote : Char} (hq : quote = '"' ∨ quote = '\'') (n : Nat)
    (stack cs : List Char) : scanCode n stack (quote :: cs) = scanQuoted n stack quote cs := by
  obtain rfl | rfl := hq
  all_goals
    rw [scanCode.eq_def]
    simp [rawQuote]

theorem scanCode_closer_error {opener : Char} (hc : openerOf? c = some opener)
    (hs : stack.head? ≠ some opener) (n : Nat) (cs : List Char) :
    scanCode n stack (c :: cs) = .error (.unbalanced n c) := by
  have hchar : c = '}' ∨ c = ')' ∨ c = ']' := by
    unfold openerOf? at hc
    split at hc <;> simp_all
  rw [scanCode.eq_def]
  obtain rfl | rfl | rfl := hchar
  all_goals
    cases stack with
    | nil => simp [rawQuote, isOpener, openerOf?]
    | cons top below =>
      cases hc
      simp_all [rawQuote, isOpener, openerOf?]

/-! ## White space at the ends of a line -/

theorem isOrdinary_of_isBlank {b : Char} (hb : isBlank b = true) :
    IsOrdinary b ∧ b ≠ '/' ∧ b ≠ '*' ∧ b ≠ '\\' := by
  have hcode := mem_blankCodes hb
  have hall : ∀ m ∈ blankCodes, (Char.ofNat m != '/' && Char.ofNat m != '*' &&
      Char.ofNat m != '\\' && Char.ofNat m != rawQuote && Char.ofNat m != '"' &&
      Char.ofNat m != '\'' && !isOpener (Char.ofNat m) &&
      (openerOf? (Char.ofNat m)).isNone) = true := by
    decide
  have h := hall b.toNat hcode
  simp only [Char.ofNat_toNat, Bool.and_eq_true, bne_iff_ne, ne_eq, Bool.not_eq_true',
    Option.isNone_iff_eq_none] at h
  obtain ⟨⟨⟨⟨⟨⟨⟨hslash, hstar⟩, hback⟩, hraw⟩, hdouble⟩, hsingle⟩, hopener⟩, hcloser⟩ := h
  exact ⟨⟨hraw, hdouble, hsingle, hopener, hcloser⟩, hslash, hstar, hback⟩

/-! ### The other states of a line -/

theorem scanComment_close (n : Nat) (stack cs : List Char) :
    scanComment n stack ('*' :: '/' :: cs) = scanCode n stack cs := by
  rw [scanComment]

theorem scanComment_cons (h : c = '*' → cs.head? ≠ some '/') (n : Nat) (stack : List Char) :
    scanComment n stack (c :: cs) = scanComment n stack cs := by
  rw [scanComment.eq_def]
  split
  · simp_all
  · simp_all
  · rename_i heq
    cases heq
    rfl

theorem scanQuoted_end (n : Nat) (stack : List Char) (quote : Char) :
    scanQuoted n stack quote ['\\'] = .error (.unclosed quote) := by
  rw [scanQuoted]

theorem scanQuoted_escape (n : Nat) (stack : List Char) (quote : Char) (c : Char) (cs : List Char) :
    scanQuoted n stack quote ('\\' :: c :: cs) = scanQuoted n stack quote cs := by
  rw [scanQuoted]

theorem scanQuoted_cons (h : c ≠ '\\') (n : Nat) (stack : List Char) (quote : Char)
    (cs : List Char) : scanQuoted n stack quote (c :: cs) =
      if c = quote then scanCode n stack cs else scanQuoted n stack quote cs := by
  rw [scanQuoted.eq_def]
  split <;> simp_all

/-- White space behind a text makes no difference, in whatever state the text starts. -/
structure Ignores (n : Nat) (b : Char) (cs : List Char) : Prop where
  code : ∀ stack, scanCode n stack (cs ++ [b]) = scanCode n stack cs
  raw : ∀ stack, scanRaw n stack (cs ++ [b]) = scanRaw n stack cs
  comment : ∀ stack, scanComment n stack (cs ++ [b]) = scanComment n stack cs
  quoted : ∀ stack quote, quote ≠ b →
    scanQuoted n stack quote (cs ++ [b]) = scanQuoted n stack quote cs

theorem Ignores.nil {b : Char} (hb : isBlank b = true) (n : Nat) : Ignores n b [] := by
  obtain ⟨hord, -, -, hback⟩ := isOrdinary_of_isBlank hb
  refine ⟨fun stack => ?_, fun stack => ?_, fun stack => ?_, fun stack quote hq => ?_⟩
  · exact hord.scanCode (fun h => absurd h (isOrdinary_of_isBlank hb).2.1) n stack
  · simp [scanRaw, hord.raw]
  · exact scanComment_cons (by simp) n stack
  · rw [List.nil_append, scanQuoted_cons hback, if_neg hq.symm]

theorem parts_append {b : Char} (hb : isBlank b = true) (h : parts cs) : parts (cs ++ [b]) := by
  obtain ⟨-, hslash, hstar, -⟩ := isOrdinary_of_isBlank hb
  cases cs with
  | nil => exact ⟨by simpa using hslash, by simpa using hstar⟩
  | cons d cs => exact h

/-- A line, one character longer. -/
theorem Ignores.cons {b : Char} (hb : isBlank b = true)
    (ih : ∀ rest : List Char, rest.length ≤ cs.length → Ignores n b rest) (c : Char) :
    Ignores n b (c :: cs) := by
  have hcs := ih cs (Nat.le_refl _)
  refine ⟨fun stack => ?_, fun stack => ?_, fun stack => ?_, fun stack quote hq => ?_⟩
  · cases front c cs with
    | lineComment rest => simp [scanCode]
    | blockComment rest =>
      have hrest := (ih rest (by simp)).comment stack
      simpa [scanCode] using hrest
    | rawString => simpa [scanCode_raw] using hcs.raw stack
    | quoted _ hc =>
      have hne : c ≠ b := by
        rintro rfl
        have hord := (isOrdinary_of_isBlank hb).1
        obtain rfl | rfl := hc
        · exact hord.double rfl
        · exact hord.single rfl
      simpa [scanCode_quote hc] using hcs.quoted stack c hne
    | opener _ hc => simpa [scanCode_opener hc] using hcs.code (c :: stack)
    | @closer _ opener _ hc =>
      by_cases hs : stack.head? = some opener
      · cases stack with
        | nil => cases hs
        | cons top below =>
          cases hs
          simpa [scanCode_closer hc] using hcs.code below
      · rw [List.cons_append, scanCode_closer_error hc hs, scanCode_closer_error hc hs]
    | ordinary hc hslash =>
      have hparts : c = '/' → parts (cs ++ [b]) := fun h => parts_append hb (hslash h)
      rw [List.cons_append, hc.scanCode hparts, hc.scanCode hslash, hcs.code]
  · rw [List.cons_append, scanRaw, scanRaw, hcs.code, hcs.raw]
  · by_cases hclose : c = '*' ∧ cs.head? = some '/'
    · obtain ⟨rfl, hhead⟩ := hclose
      obtain ⟨rest, rfl⟩ := List.head?_eq_some_iff.1 hhead
      have hrest := (ih rest (by simp)).code stack
      simpa [scanComment_close] using hrest
    · have hcons : c = '*' → cs.head? ≠ some '/' := by simpa using hclose
      have hcons' : c = '*' → (cs ++ [b]).head? ≠ some '/' := by
        intro h
        cases cs with
        | nil => simpa using (isOrdinary_of_isBlank hb).2.1
        | cons d cs => simpa using hcons h
      rw [List.cons_append, scanComment_cons hcons', scanComment_cons hcons, hcs.comment]
  · by_cases hback : c = '\\'
    · subst hback
      cases cs with
      | nil =>
        rw [scanQuoted_end]
        simp [scanQuoted]
      | cons d rest =>
        have hrest := (ih rest (by simp)).quoted stack quote hq
        simpa [scanQuoted_escape] using hrest
    · rw [List.cons_append, scanQuoted_cons hback, scanQuoted_cons hback, hcs.code,
        hcs.quoted stack quote hq]

theorem ignores {b : Char} (hb : isBlank b = true) (n : Nat) (cs : List Char) :
    Ignores n b cs := by
  induction hl : cs.length using Nat.strongRecOn generalizing cs with
  | ind k ih =>
    cases cs with
    | nil => exact .nil hb n
    | cons c cs =>
      refine .cons hb (fun rest hrest => ih rest.length ?_ rest rfl) c
      rw [← hl, List.length_cons]
      omega

theorem scanLine_concat {b : Char} (hb : isBlank b = true) (n : Nat) (s : Scanner)
    (cs : List Char) : scanLine n s (cs ++ [b]) = scanLine n s cs := by
  have h := ignores hb n cs
  unfold scanLine
  cases s.mode with
  | code => exact h.code s.stack
  | rawString => exact h.raw s.stack
  | blockComment => exact h.comment s.stack

theorem scanCode_append_blank {bs : List Char} (hb : ∀ b ∈ bs, isBlank b = true) (n : Nat)
    (stack cs : List Char) : scanCode n stack (cs ++ bs) = scanCode n stack cs := by
  induction bs generalizing cs with
  | nil => rw [List.append_nil]
  | cons b bs ih =>
    obtain ⟨hb, hbs⟩ := List.forall_mem_cons.1 hb
    rw [List.append_cons, ih hbs, (ignores hb n cs).code]

theorem scanCode_trimStart (n : Nat) (stack cs : List Char) :
    scanCode n stack (trimStart cs) = scanCode n stack cs := by
  induction cs with
  | nil => rfl
  | cons c cs ih =>
    rw [trimStart, List.dropWhile_cons]
    split
    · rename_i hb
      obtain ⟨hord, hslash, -⟩ := isOrdinary_of_isBlank hb
      rw [hord.scanCode (fun h => absurd h hslash)]
      exact ih
    · rfl

theorem exists_blank_end (cs : List Char) :
    ∃ bs, cs = trimEnd cs ++ bs ∧ ∀ b ∈ bs, isBlank b = true := by
  refine ⟨(cs.reverse.takeWhile isBlank).reverse, ?_, fun b hb => ?_⟩
  · rw [trimEnd, ← List.reverse_append, List.takeWhile_append_dropWhile, List.reverse_reverse]
  · rw [List.mem_reverse] at hb
    exact List.all_eq_true.1 List.all_takeWhile b hb

/-- White space at either end of a line of code means nothing to the scanner. -/
theorem scanCode_trim (n : Nat) (stack cs : List Char) :
    scanCode n stack (trim cs) = scanCode n stack cs := by
  obtain ⟨bs, hbs, hb⟩ := exists_blank_end (trimStart cs)
  calc scanCode n stack (trim cs)
      = scanCode n stack (trim cs ++ bs) := (scanCode_append_blank hb n stack (trim cs)).symm
    _ = scanCode n stack (trimStart cs) := by rw [trim, ← hbs]
    _ = scanCode n stack cs := scanCode_trimStart n stack cs

/-! ## The verdict on lines -/

/-- What scanning the lines from line number `n` on comes to. -/
def scanLines (n : Nat) (s : Scanner) : List (List Char) → Except FormatError Unit
  | [] => s.close
  | l :: ls =>
    match scanLine n s l with
    | .error e => .error e
    | .ok s' => scanLines (n + 1) s' ls

/-- What is made of a result does not change the verdict. -/
theorem map_unit_bind {α β : Type} (x : Except FormatError α) (f : α → β) :
    (do let a ← x; return f a).map (fun _ => ()) = x.map fun _ => () := by
  cases x with
  | error e => rfl
  | ok a => rfl

/-- The layout fails on the lines, and in the same way, where scanning them does. -/
theorem layoutFrom_verdict (n : Nat) (s : Scanner) (previous : Option (List Char))
    (pending : Bool) (ls : List (List Char)) :
    (layoutFrom n s previous pending ls).map (fun _ => ()) = scanLines n s ls := by
  induction ls generalizing n s previous pending with
  | nil =>
    rw [layoutFrom, scanLines]
    cases s.close with
    | error e => rfl
    | ok u => rfl
  | cons raw rest ih =>
    obtain ⟨mode, stack⟩ := s
    have htrim := scanCode_trim n stack raw
    rw [layoutFrom, scanLines]
    cases mode with
    | code =>
      simp only [scanLine]
      rw [← htrim]
      split
      · rename_i hempty
        rw [List.isEmpty_iff.1 hempty, scanCode]
        exact ih _ _ _ _
      · cases hs : scanCode n stack (trim raw) with
        | error e => rfl
        | ok s' => exact (map_unit_bind _ _).trans (ih _ _ _ _)
    | rawString =>
      simp only
      cases hs : scanLine n ⟨.rawString, stack⟩ raw with
      | error e => rfl
      | ok s' => exact (map_unit_bind _ _).trans (ih _ _ _ _)
    | blockComment =>
      simp only
      cases hs : scanLine n ⟨.blockComment, stack⟩ raw with
      | error e => rfl
      | ok s' => exact (map_unit_bind _ _).trans (ih _ _ _ _)

/-- The verdict on lines whose first one is scanned by `f`. -/
def scanFirst (n : Nat) (f : List Char → Except FormatError Scanner) :
    List (List Char) → Except FormatError Unit
  | [] =>
    match f [] with
    | .error e => .error e
    | .ok s => s.close
  | l :: ls =>
    match f l with
    | .error e => .error e
    | .ok s => scanLines (n + 1) s ls

theorem scanLine_nil (n : Nat) (s : Scanner) : scanLine n s [] = .ok s := by
  obtain ⟨mode, stack⟩ := s
  cases mode <;> simp [scanLine, scanCode, scanRaw, scanComment]

theorem scanFirst_scanLine (n : Nat) (s : Scanner) (ls : List (List Char)) :
    scanFirst n (scanLine n s) ls = scanLines n s ls := by
  cases ls with
  | nil => rw [scanFirst, scanLine_nil, scanLines]
  | cons l ls => rfl

/-- Where a carriage return at the end of a line makes no difference, a text may be cut at its line
feeds alone. -/
theorem scanFirst_lines {f : List Char → Except FormatError Scanner}
    (hf : ∀ cs, f (cs ++ ['\r']) = f cs) (n : Nat) (text : List Char) :
    scanFirst n f (lines text) = scanFirst n f (pieces '\n' text) := by
  induction text generalizing n f with
  | nil =>
    simp only [lines, pieces, scanFirst]
    cases f [] with
    | error e => rfl
    | ok s => rfl
  | cons c cs ih =>
    rw [lines, pieces]
    split
    · -- a line ends here
      simp only [scanFirst]
      cases f [] with
      | error e => rfl
      | ok s =>
        simp only
        rw [← scanFirst_scanLine, ← scanFirst_scanLine]
        exact ih (scanLine_concat (by decide) (n + 1) s) (n + 1)
    · rename_i hnewline
      obtain ⟨p, ps, hp⟩ := List.exists_cons_of_ne_nil (Text.pieces_ne_nil '\n' cs)
      split
      · -- and here behind a carriage return
        rename_i hreturn
        obtain ⟨rfl, hhead⟩ := hreturn
        obtain ⟨rest, rfl⟩ := List.head?_eq_some_iff.1 hhead
        rw [ih hf n]
        simp only [pieces, if_true, scanFirst]
        rw [← List.nil_append ['\r'], hf]
      · have hfc : ∀ cs, f (c :: (cs ++ ['\r'])) = f (c :: cs) := fun cs => hf (c :: cs)
        have ih := ih (f := fun cs => f (c :: cs)) hfc n
        cases cs with
        | nil => rfl
        | cons d cs =>
          obtain ⟨l, ls, hl⟩ := List.exists_cons_of_ne_nil (Text.lines_ne_nil (List.cons_ne_nil d cs))
          rw [hl, hp] at ih ⊢
          exact ih

/-! ## The verdict on a text -/

/-- What scanning a text from line number `n` on comes to, where line feeds alone end its lines. -/
def verdict (n : Nat) (s : Scanner) (text : List Char) : Except FormatError Unit :=
  scanLines n s (pieces '\n' text)

/-- The layout of a text fails where its scanning does, and in the same way. -/
theorem canonical_verdict (text : List Char) :
    (canonical text).map (fun _ => ()) = verdict 1 .initial text := by
  have hcut : scanLines 1 .initial (lines text) = verdict 1 .initial text := by
    rw [verdict, ← scanFirst_scanLine, ← scanFirst_scanLine]
    exact scanFirst_lines (scanLine_concat (by decide) 1 .initial) 1 text
  rw [← hcut, ← layoutFrom_verdict 1 .initial none false, canonical]
  cases layoutFrom 1 .initial none false (lines text) with
  | error e => rfl
  | ok ls => rfl

theorem verdict_nil (n : Nat) (s : Scanner) : verdict n s [] = s.close := by
  rw [verdict, pieces, scanLines, scanLine_nil]
  rfl

theorem verdict_newline (n : Nat) (s : Scanner) (text : List Char) :
    verdict n s ('\n' :: text) = verdict (n + 1) s text := by
  rw [verdict, pieces, if_pos rfl, scanLines, scanLine_nil]
  rfl

/-- The first piece of a text is a beginning of it. -/
theorem prefix_of_pieces {text p : List Char} {ps : List (List Char)}
    (h : pieces '\n' text = p :: ps) : p <+: text := by
  induction text generalizing p ps with
  | nil => cases h; exact List.prefix_refl []
  | cons c cs ih =>
    rw [pieces] at h
    split at h
    · cases h
      exact List.nil_prefix
    · obtain ⟨q, qs, hq⟩ := List.exists_cons_of_ne_nil (Text.pieces_ne_nil '\n' cs)
      rw [hq] at h
      cases h
      exact (List.prefix_cons_inj c).2 (ih hq)

theorem pieces_append_front {front text p : List Char} {ps : List (List Char)}
    (hn : '\n' ∉ front) (h : pieces '\n' text = p :: ps) :
    pieces '\n' (front ++ text) = (front ++ p) :: ps := by
  induction front with
  | nil => exact h
  | cons c front ih =>
    rw [List.mem_cons, not_or] at hn
    rw [List.cons_append, pieces, if_neg (Ne.symm hn.1), ih hn.2]
    rfl

/-- To go on behind some characters of a line, it is enough to know what they do to the rest of the
line. -/
theorem verdict_append (front : List Char) {n : Nat} {s s' : Scanner} {text : List Char} (hn : '\n' ∉ front)
    (h : ∀ p, p <+: text → scanLine n s (front ++ p) = scanLine n s' p) :
    verdict n s (front ++ text) = verdict n s' text := by
  obtain ⟨p, ps, hp⟩ := List.exists_cons_of_ne_nil (Text.pieces_ne_nil '\n' text)
  rw [verdict, verdict, pieces_append_front hn hp, hp, scanLines, scanLines,
    h p (prefix_of_pieces hp)]

/-- The text or its current line ends. -/
def EndsLine (rest : List Char) : Prop := rest = [] ∨ rest.head? = some '\n'

theorem EndsLine.pieces {rest : List Char} (h : EndsLine rest) :
    ∃ ps, Text.pieces '\n' rest = [] :: ps := by
  obtain rfl | h := h
  · exact ⟨[], rfl⟩
  · obtain ⟨rest, rfl⟩ := List.head?_eq_some_iff.1 h
    exact ⟨_, by rw [Text.pieces, if_pos rfl]⟩

/-- The line ends behind some characters. -/
theorem verdict_endsLine {n : Nat} {s s' : Scanner} {front rest : List Char} (hn : '\n' ∉ front)
    (hr : EndsLine rest) (h : scanLine n s front = .ok s') :
    verdict n s (front ++ rest) = verdict n s' rest := by
  obtain ⟨ps, hp⟩ := hr.pieces
  rw [verdict, verdict, pieces_append_front hn hp, hp, List.append_nil, scanLines, scanLines, h,
    scanLine_nil]

/-- An offence on the current line. -/
theorem verdict_error (front : List Char) {n : Nat} {s : Scanner} {rest : List Char} {e : FormatError}
    (hn : '\n' ∉ front) (h : ∀ p, p <+: rest → scanLine n s (front ++ p) = .error e) :
    verdict n s (front ++ rest) = .error e := by
  obtain ⟨p, ps, hp⟩ := List.exists_cons_of_ne_nil (Text.pieces_ne_nil '\n' rest)
  rw [verdict, pieces_append_front hn hp, scanLines, h p (prefix_of_pieces hp)]

end Layout
end ResetMethods
