import ResetMethods.Proofs.Layout.Lines
import ResetMethods.Proofs.Text.Cutting

/-!
# ResetMethods.Proofs.Layout.RawStrings

The contents of raw strings in a text that is laid out.

* `insideRaw`: whether the scanner is in a raw string behind the first part of a text. There it goes
  on until it comes to a raw quote (`insideRaw_concat`).
* `rawBodies`: what the raw strings of a text hold, line breaks included.
* `Lays.keeps`: the layout takes nothing out of raw strings but the white space at the end of lines
  that begin outside them and end inside.
* `rawBodies_kept_iff`: so the raw strings of a text without carriage returns stay as they are where
  no such line ends in white space. `rawBodies_opened` is a text in which one does.
-/

namespace ResetMethods
namespace Layout

open Text (lines pieces trim trimStart trimEnd isBlank)

/-- Whether the scanner is in a raw string behind `front`, with `s` open before it. -/
def insideRaw (s : Scanner) (front : List Char) : Bool :=
  (s.through? (pieces '\n' front)).any (·.mode == .rawString)

/-- The characters that the scanner reads in raw strings, the closing quotes included, where `front`
has been read before. -/
def rawChars (s : Scanner) (front : List Char) : List Char → List Char
  | [] => []
  | c :: cs =>
    if insideRaw s front then c :: rawChars s (front ++ [c]) cs
    else rawChars s (front ++ [c]) cs

/-- What the raw strings of a text hold, one after the other. A closing quote ends each of them. -/
def rawBodies (text : List Char) : List (List Char) :=
  (pieces rawQuote (rawChars .initial [] text)).dropLast

variable {n : Nat} {s s' : Scanner} {l raw laid w front text : List Char}
  {ls rest below out : List (List Char)} {previous : Option (List Char)} {pending : Bool} {c : Char}

/-! ## A raw string goes on up to a raw quote -/

/-- Where a text ends in a raw string, what comes behind it goes on with the string. -/
structure GoesOn (n : Nat) (p : List Char) : Prop where
  code : ∀ stack t rest, scanCode n stack p = .ok ⟨.rawString, t⟩ →
    scanCode n stack (p ++ rest) = scanRaw n t rest
  raw : ∀ stack t rest, scanRaw n stack p = .ok ⟨.rawString, t⟩ →
    scanRaw n stack (p ++ rest) = scanRaw n t rest
  comment : ∀ stack t rest, scanComment n stack p = .ok ⟨.rawString, t⟩ →
    scanComment n stack (p ++ rest) = scanRaw n t rest
  quoted : ∀ stack quote t rest, scanQuoted n stack quote p = .ok ⟨.rawString, t⟩ →
    scanQuoted n stack quote (p ++ rest) = scanRaw n t rest

theorem GoesOn.nil (n : Nat) : GoesOn n [] := by
  refine ⟨fun stack t rest h => ?_, fun stack t rest h => ?_, fun stack t rest h => ?_,
    fun stack quote t rest h => ?_⟩
  · simp [scanCode] at h
  · simp only [scanRaw, Except.ok.injEq, Scanner.mk.injEq, true_and] at h
    rw [h]
    rfl
  · simp [scanComment] at h
  · simp [scanQuoted] at h

theorem GoesOn.cons {cs : List Char} (ih : ∀ p : List Char, p.length ≤ cs.length → GoesOn n p)
    (c : Char) : GoesOn n (c :: cs) := by
  have hcs := ih cs (Nat.le_refl _)
  refine ⟨fun stack t rest h => ?_, fun stack t rest h => ?_, fun stack t rest h => ?_,
    fun stack quote t rest h => ?_⟩
  · cases front c cs with
    | lineComment cs => simp [scanCode] at h
    | blockComment cs =>
      have hcomment := (ih cs (by simp)).comment stack t rest (by simpa [scanCode] using h)
      simpa [scanCode] using hcomment
    | rawString =>
      rw [scanCode_raw] at h
      simpa [scanCode_raw] using hcs.raw stack t rest h
    | quoted _ hc =>
      rw [scanCode_quote hc] at h
      simpa [scanCode_quote hc] using hcs.quoted stack c t rest h
    | opener _ hc =>
      rw [scanCode_opener hc] at h
      simpa [scanCode_opener hc] using hcs.code (c :: stack) t rest h
    | @closer _ opener _ hc =>
      by_cases hs : stack.head? = some opener
      · obtain ⟨under, rfl⟩ := List.head?_eq_some_iff.1 hs
        rw [scanCode_closer hc] at h
        simpa [scanCode_closer hc] using hcs.code under t rest h
      · rw [scanCode_closer_error hc hs] at h
        cases h
    | ordinary hc hslash =>
      rw [hc.scanCode hslash] at h
      have hparts : c = '/' → parts (cs ++ rest) := by
        intro hc
        cases cs with
        | nil => simp [scanCode] at h
        | cons d cs => exact hslash hc
      rw [List.cons_append, hc.scanCode hparts]
      exact hcs.code stack t rest h
  · by_cases hc : c = rawQuote
    · simp only [scanRaw, if_pos hc, List.cons_append] at h ⊢
      exact hcs.code stack t rest h
    · simp only [scanRaw, if_neg hc, List.cons_append] at h ⊢
      exact hcs.raw stack t rest h
  · by_cases hclose : c = '*' ∧ cs.head? = some '/'
    · obtain ⟨rfl, hhead⟩ := hclose
      obtain ⟨more, rfl⟩ := List.head?_eq_some_iff.1 hhead
      rw [scanComment_close] at h
      have hcode := (ih more (by simp)).code stack t rest h
      simpa [scanComment_close] using hcode
    · have hcons : c = '*' → cs.head? ≠ some '/' := by simpa using hclose
      rw [scanComment_cons hcons] at h
      have hcons' : c = '*' → (cs ++ rest).head? ≠ some '/' := by
        intro hc
        cases cs with
        | nil => simp [scanComment] at h
        | cons d cs => exact hcons hc
      rw [List.cons_append, scanComment_cons hcons']
      exact hcs.comment stack t rest h
  · by_cases hback : c = '\\'
    · subst hback
      cases cs with
      | nil => simp [scanQuoted_end] at h
      | cons d cs =>
        rw [scanQuoted_escape] at h
        have hquoted := (ih cs (by simp)).quoted stack quote t rest h
        simpa [scanQuoted_escape] using hquoted
    · rw [List.cons_append, scanQuoted_cons hback]
      rw [scanQuoted_cons hback] at h
      split at h
      · rename_i hquote
        rw [if_pos hquote]
        exact hcs.code stack t rest h
      · rename_i hquote
        rw [if_neg hquote]
        exact hcs.quoted stack quote t rest h

theorem goesOn (n : Nat) (p : List Char) : GoesOn n p := by
  induction hl : p.length using Nat.strongRecOn generalizing p with
  | ind k ih =>
    cases p with
    | nil => exact .nil n
    | cons c cs =>
      refine .cons (fun rest hrest => ih rest.length ?_ rest rfl) c
      rw [← hl, List.length_cons]
      omega

theorem Scanner.after?_concat (h : s.after? l = some s') (hraw : s'.mode = .rawString)
    (hc : c ≠ rawQuote) : s.after? (l ++ [c]) = some s' := by
  obtain ⟨mode, t⟩ := s'
  cases hraw
  have hgoes := goesOn 0 l
  have hstep : scanRaw 0 t [c] = .ok ⟨.rawString, t⟩ := by simp [scanRaw, hc]
  rw [← scanLine_eq_ok_iff (n := 0)] at h ⊢
  unfold scanLine at h ⊢
  cases hs : s.mode with
  | code => simp only [hs] at h ⊢; rw [hgoes.code _ _ _ h, hstep]
  | rawString => simp only [hs] at h ⊢; rw [hgoes.raw _ _ _ h, hstep]
  | blockComment => simp only [hs] at h ⊢; rw [hgoes.comment _ _ _ h, hstep]

/-! ## Inside and outside -/

theorem insideRaw_line (h : '\n' ∉ l) :
    insideRaw s l = (s.after? l).any (·.mode == .rawString) := by
  rw [insideRaw, Text.pieces_of_not_mem h, Scanner.through?_cons]
  simp [Scanner.through?_nil]

theorem insideRaw_behind (h : '\n' ∉ l) (p : List Char) :
    insideRaw s (l ++ '\n' :: p) = (s.after? l).any (insideRaw · p) := by
  rw [insideRaw, Text.pieces_cons h, Scanner.through?_cons]
  cases s.after? l with
  | none => rfl
  | some s' => rfl

theorem insideRaw_newline (s : Scanner) (text : List Char) :
    insideRaw s (text ++ ['\n']) = insideRaw s text := by
  have hnil (t : Scanner) : t.through? (pieces '\n' []) = some t := by
    rw [pieces, Scanner.through?_cons, Scanner.after?_nil]
    rfl
  rw [insideRaw, Text.pieces_append, Scanner.through?_append, insideRaw]
  simp [hnil]

theorem insideRaw_append_blank {bs : List Char} (hb : ∀ b ∈ bs, isBlank b = true)
    (hl : '\n' ∉ l ++ bs) : insideRaw s (l ++ bs) = insideRaw s l := by
  rw [insideRaw_line hl, insideRaw_line fun hm => hl (List.mem_append_left _ hm),
    Scanner.after?_append_blank hb]

theorem insideRaw_blank_append {bs : List Char} (hs : s.mode = .code)
    (hb : ∀ b ∈ bs, isBlank b = true) (hl : '\n' ∉ bs ++ l) :
    insideRaw s (bs ++ l) = insideRaw s l := by
  rw [insideRaw_line hl, insideRaw_line fun hm => hl (List.mem_append_right _ hm),
    Scanner.after?_blank_append hs hb]

theorem insideRaw_blank (hs : s.mode = .code) (hb : IsBlankLine l) (hl : '\n' ∉ l) :
    insideRaw s l = false := by
  rw [insideRaw_line hl, Scanner.after?_blank hb]
  simp [hs]

/-- A raw string goes on behind anything but a raw quote. -/
theorem insideRaw_concat (h : insideRaw s text = true) (hc : c ≠ rawQuote) :
    insideRaw s (text ++ [c]) = true := by
  by_cases hn : c = '\n'
  · rwa [hn, insideRaw_newline]
  induction hl : text.length using Nat.strongRecOn generalizing s text with
  | ind k ih =>
    by_cases hmem : '\n' ∈ text
    · -- the line at the end is one of those behind the first line break
      obtain ⟨l, p, rfl, hline⟩ := List.eq_append_cons_of_mem hmem
      rw [insideRaw_behind hline, Option.any_eq_true] at h
      obtain ⟨s', ha, hp⟩ := h
      have hp := ih p.length (by simp at hl; omega) hp rfl
      rw [List.append_assoc, List.cons_append, insideRaw_behind hline, ha]
      exact hp
    · rw [insideRaw_line hmem, Option.any_eq_true] at h
      obtain ⟨s', ha, hraw⟩ := h
      have ha := Scanner.after?_concat ha (by simpa using hraw) hc
      rw [insideRaw_line (by simpa [hmem] using Ne.symm hn), ha]
      exact hraw

/-! ## What is read in raw strings -/

theorem rawChars_append (s : Scanner) (front a b : List Char) :
    rawChars s front (a ++ b) = rawChars s front a ++ rawChars s (front ++ a) b := by
  induction a generalizing front with
  | nil => simp [rawChars]
  | cons c a ih =>
    rw [List.cons_append, rawChars, rawChars, ih]
    split <;> simp

/-- Behind a line it only matters what is open there. -/
theorem rawChars_behind (ha : s.after? l = some s') (hl : '\n' ∉ l) (front text : List Char) :
    rawChars s (l ++ '\n' :: front) text = rawChars s' front text := by
  induction text generalizing front with
  | nil => rfl
  | cons c text ih =>
    have ih := ih (front ++ [c])
    rw [rawChars, rawChars, insideRaw_behind hl, ha, Option.any_some, List.append_assoc,
      List.cons_append, ih]

/-- A line, its line break, and what comes behind it. -/
theorem rawChars_line (ha : s.after? l = some s') (hl : '\n' ∉ l) (text : List Char) :
    rawChars s [] (l ++ '\n' :: text) =
      rawChars s [] l ++ (if insideRaw s l then ['\n'] else []) ++ rawChars s' [] text := by
  have hbehind : rawChars s (l ++ ['\n']) text = rawChars s' [] text :=
    rawChars_behind ha hl [] text
  rw [rawChars_append, List.nil_append, rawChars, hbehind]
  split <;> simp

/-- White space at the end of a line is read in a raw string or outside, all of it. -/
theorem rawChars_blank {bs : List Char} (hb : ∀ b ∈ bs, isBlank b = true) (hl : '\n' ∉ l ++ bs) :
    rawChars s l bs = if insideRaw s l then bs else [] := by
  induction bs generalizing l with
  | nil => simp [rawChars]
  | cons b bs ih =>
    obtain ⟨hblank, hbs⟩ := List.forall_mem_cons.1 hb
    have hline : '\n' ∉ l ++ [b] := by
      intro hm
      refine hl ?_
      rw [List.append_cons]
      exact List.mem_append_left _ hm
    have hin : insideRaw s (l ++ [b]) = insideRaw s l :=
      insideRaw_append_blank (by simpa using hblank) hline
    rw [rawChars, ih hbs (by rwa [← List.append_cons]), hin]
    split <;> rfl

/-- Behind white space a line of code is read as without. -/
theorem rawChars_behind_blank {bs : List Char} (hs : s.mode = .code)
    (hb : ∀ b ∈ bs, isBlank b = true) (hl : '\n' ∉ bs ++ (front ++ l)) :
    rawChars s (bs ++ front) l = rawChars s front l := by
  induction l generalizing front with
  | nil => rfl
  | cons c l ih =>
    have hfront : '\n' ∉ bs ++ front := by
      intro hm
      refine hl ?_
      rw [← List.append_assoc]
      exact List.mem_append_left _ hm
    have ih := @ih (front ++ [c]) (by rwa [← List.append_cons])
    rw [rawChars, rawChars, insideRaw_blank_append hs hb hfront, List.append_assoc, ih]

/-- White space in front of a line of code is not read in a raw string. -/
theorem rawChars_skip {bs : List Char} (hs : s.mode = .code) (hb : ∀ b ∈ bs, isBlank b = true)
    (hl : '\n' ∉ bs ++ l) : rawChars s [] (bs ++ l) = rawChars s [] l := by
  have hnone : rawChars s [] bs = [] := by
    rw [rawChars_blank hb fun hm => hl (List.mem_append_left _ hm),
      insideRaw_blank hs (by simp [IsBlankLine]) (by simp)]
    rfl
  have hline : rawChars s (bs ++ []) l = rawChars s [] l := rawChars_behind_blank hs hb hl
  rw [List.append_nil] at hline
  rw [rawChars_append, hnone, List.nil_append, List.nil_append, hline]

/-- White space at the end of a line is what its raw strings lose with it. -/
theorem rawChars_trailing {bs : List Char} (hb : ∀ b ∈ bs, isBlank b = true)
    (hl : '\n' ∉ l ++ bs) :
    rawChars s [] (l ++ bs) = rawChars s [] l ++ if insideRaw s (l ++ bs) then bs else [] := by
  rw [rawChars_append, List.nil_append, rawChars_blank hb hl, insideRaw_append_blank hb hl]

/-- A blank line of code has nothing to do with raw strings. -/
theorem rawChars_blankLine (hs : s.mode = .code) (hb : IsBlankLine l) (hl : '\n' ∉ l)
    (ls : List (List Char)) : rawChars s [] (unlines (l :: ls)) = rawChars s [] (unlines ls) := by
  have hnone : rawChars s [] l = [] := by
    have h := rawChars_skip hs hb (l := []) (by simpa using hl)
    rwa [List.append_nil] at h
  rw [unlines_cons, rawChars_line (Scanner.after?_blank hb s) hl, hnone, insideRaw_blank hs hb hl]
  simp

/-! ## Lines that a raw string opens on -/

/-- Where a raw string opens on a line and goes on behind it, the line does not end in white
space. -/
def KeepsOpening (s : Scanner) (l : List Char) : Prop :=
  s.mode ≠ .rawString → insideRaw s l = true → ∀ c, l.getLast? = some c → isBlank c = false

/-- A line has lost all white space at its end when it does not end in any. -/
theorem eq_nil_iff_getLast? {bs : List Char} (hends : l = [] ∨ Ends l)
    (hb : ∀ b ∈ bs, isBlank b = true) :
    bs = [] ↔ ∀ c, (l ++ bs).getLast? = some c → isBlank c = false := by
  constructor
  · rintro rfl c hc
    rw [List.append_nil] at hc
    obtain rfl | ⟨cs, d, rfl, hd⟩ := hends
    · cases hc
    · simp only [List.getLast?_append, List.getLast?_singleton, Option.some_or,
        Option.some.injEq] at hc
      rwa [← hc]
  · intro h
    obtain rfl | ⟨init, b, rfl⟩ := List.eq_nil_or_concat bs
    · rfl
    · have hvisible := h b (by simp [List.getLast?_append])
      rw [hb b (by simp)] at hvisible
      cases hvisible

/-- A line keeps its openings where its raw strings lose nothing at its end. -/
theorem lost_eq_nil_iff {bs : List Char} (hs : s.mode ≠ .rawString) (hends : l = [] ∨ Ends l)
    (hb : ∀ b ∈ bs, isBlank b = true) (hlast : raw.getLast? = (l ++ bs).getLast?) :
    (if insideRaw s raw then bs else []) = [] ↔ KeepsOpening s raw := by
  rw [KeepsOpening, hlast, ← eq_nil_iff_getLast? hends hb]
  cases insideRaw s raw with
  | false => simp
  | true => simp [hs]

/-- What the raw strings of a line of code lose where it is trimmed. -/
theorem exists_lost_code (hs : s.mode = .code) (hvisible : ¬ IsBlankLine raw) (hraw : '\n' ∉ raw) :
    ∃ w, rawChars s [] raw = rawChars s [] (indented s (trim raw)) ++ w ∧
      (w = [] ↔ KeepsOpening s raw) := by
  have hne : trim raw ≠ [] := mt trim_eq_nil_iff.1 hvisible
  obtain ⟨front, hfront, hf⟩ := exists_blank_start raw
  obtain ⟨bs, hbs, hb⟩ := exists_blank_end (trimStart raw)
  have hsplit : raw = front ++ (trim raw ++ bs) := by
    rw [trim, ← hbs, ← hfront]
  have hend : '\n' ∉ trim raw ++ bs := by
    intro hm
    exact hraw (hsplit ▸ List.mem_append_right front hm)
  have hin : insideRaw s (trim raw ++ bs) = insideRaw s raw := by
    conv => rhs; rw [hsplit]
    exact (insideRaw_blank_append hs hf (hsplit ▸ hraw)).symm
  refine ⟨if insideRaw s raw then bs else [], ?_, lost_eq_nil_iff (by simp [hs])
    (.inr (ends_trim hne).2) hb ?_⟩
  · calc rawChars s [] raw
        = rawChars s [] (front ++ (trim raw ++ bs)) := by rw [← hsplit]
      _ = rawChars s [] (trim raw ++ bs) := rawChars_skip hs hf (hsplit ▸ hraw)
      _ = rawChars s [] (trim raw) ++ if insideRaw s raw then bs else [] := by
        rw [rawChars_trailing hb hend, hin]
      _ = rawChars s [] (indented s (trim raw)) ++ if insideRaw s raw then bs else [] := by
        rw [indented, rawChars_skip hs (blank_tabs _) (newline_not_mem_indented hraw s)]
  · calc raw.getLast?
        = (front ++ (trim raw ++ bs)).getLast? := by rw [← hsplit]
      _ = (trim raw ++ bs).getLast? :=
        List.getLast?_append_of_ne_nil front (List.append_ne_nil_of_left_ne_nil hne bs)

/-- What the raw strings of a line that begins in a comment lose where it is trimmed. -/
theorem exists_lost_comment (hs : s.mode = .blockComment) (hraw : '\n' ∉ raw) :
    ∃ w, rawChars s [] raw = rawChars s [] (trimEnd raw) ++ w ∧
      (w = [] ↔ KeepsOpening s raw) := by
  obtain ⟨bs, hbs, hb⟩ := exists_blank_end raw
  have hlost := rawChars_trailing (s := s) hb (hbs ▸ hraw)
  rw [← hbs] at hlost
  exact ⟨_, hlost, lost_eq_nil_iff (by simp [hs]) (ends_trimEnd raw) hb (by rw [← hbs])⟩

/-- The raw strings of the lines `out` are those of `ls` but for white space that got lost, and none
got lost where all lines keep their openings. -/
structure Keeps (s : Scanner) (ls out : List (List Char)) : Prop where
  le : (rawChars s [] (unlines out)).length ≤ (rawChars s [] (unlines ls)).length
  eq_iff : rawChars s [] (unlines out) = rawChars s [] (unlines ls) ↔ AtEachLine KeepsOpening s ls

/-- A line that is laid out for another, with the same open behind it, and what its raw strings
lose. -/
theorem Keeps.line (ha : s.after? raw = some s') (hlaid : s.after? laid = some s')
    (hraw : '\n' ∉ raw) (hone : '\n' ∉ laid)
    (hlost : rawChars s [] raw = rawChars s [] laid ++ w) (hw : w = [] ↔ KeepsOpening s raw)
    (h : Keeps s' rest below) : Keeps s (raw :: rest) (laid :: below) := by
  have hin : insideRaw s laid = insideRaw s raw := by
    rw [insideRaw_line hone, insideRaw_line hraw, ha, hlaid]
  have hle := h.le
  constructor
  · rw [unlines_cons, unlines_cons, rawChars_line ha hraw, rawChars_line hlaid hone, hlost, hin]
    simp only [List.length_append]
    omega
  · rw [atEachLine_cons ha, ← hw, ← h.eq_iff]
    rw [unlines_cons, unlines_cons, rawChars_line ha hraw, rawChars_line hlaid hone, hlost, hin]
    constructor
    · intro heq
      have hlength := congrArg List.length heq
      simp only [List.length_append] at hlength
      have hnil : w = [] := List.length_eq_zero_iff.1 (by omega)
      rw [hnil, List.append_nil] at heq
      exact ⟨hnil, List.append_cancel_left heq⟩
    · rintro ⟨hnil, heq⟩
      rw [hnil, heq, List.append_nil]

theorem Lays.keeps (h : Lays s previous pending ls out) (hone : ∀ l ∈ ls, '\n' ∉ l) :
    Keeps s ls out := by
  induction h with
  | done => exact ⟨Nat.le_refl _, by simp [atEachLine_nil]⟩
  | @blank s _ _ raw rest below hs hb _ ih =>
    obtain ⟨hraw, hrest⟩ := List.forall_mem_cons.1 hone
    have hkeeps : KeepsOpening s raw := by
      intro _ hin
      rw [insideRaw_blank hs hb hraw] at hin
      cases hin
    have ih := ih hrest
    refine ⟨?_, ?_⟩
    · rw [rawChars_blankLine hs hb hraw]
      exact ih.le
    · rw [rawChars_blankLine hs hb hraw, atEachLine_cons (Scanner.after?_blank hb s), ih.eq_iff]
      simp [hkeeps]
  | @code s s' previous pending raw rest below hs hvisible ha _ ih =>
    obtain ⟨hraw, hrest⟩ := List.forall_mem_cons.1 hone
    obtain ⟨w, hlost, hw⟩ := exists_lost_code hs hvisible hraw
    have hafter : s.after? (indented s (trim raw)) = some s' := by
      rw [Scanner.after?_indented_trim hs, ha]
    have hlaid : '\n' ∉ indented s (trim raw) := newline_not_mem_indented hraw s
    have hkeeps := Keeps.line ha hafter hraw hlaid hlost hw (ih hrest)
    obtain hgap | ⟨hgap, -⟩ := gap_cases previous pending (trim raw)
    · rw [hgap]
      exact hkeeps
    · -- the blank line that is kept is one more of which raw strings know nothing
      have hblank := rawChars_blankLine hs (l := []) (by simp [IsBlankLine]) (by simp)
        (indented s (trim raw) :: below)
      rw [hgap]
      refine ⟨?_, ?_⟩
      · rw [List.singleton_append, hblank]
        exact hkeeps.le
      · rw [List.singleton_append, hblank]
        exact hkeeps.eq_iff
  | @rawString s s' _ _ raw rest below hs ha _ ih =>
    obtain ⟨hraw, hrest⟩ := List.forall_mem_cons.1 hone
    exact .line ha ha hraw hraw (List.append_nil _).symm (by simp [KeepsOpening, hs]) (ih hrest)
  | @blockComment s s' _ _ raw rest below hs ha _ ih =>
    obtain ⟨hraw, hrest⟩ := List.forall_mem_cons.1 hone
    obtain ⟨w, hlost, hw⟩ := exists_lost_comment hs hraw
    have hlaid : '\n' ∉ trimEnd raw := fun hm => hraw ((trimEnd_sublist raw).mem hm)
    exact .line ha (by rw [Scanner.after?_trimEnd, ha]) hraw hlaid hlost hw (ih hrest)

/-! ## Raw strings of a text -/

theorem pieces_unlines (h : ∀ l ∈ ls, '\n' ∉ l) : pieces '\n' (unlines ls) = ls ++ [[]] := by
  induction ls with
  | nil => rfl
  | cons l ls ih =>
    obtain ⟨hl, h⟩ := List.forall_mem_cons.1 h
    rw [unlines_cons, Text.pieces_cons hl, ih h]
    rfl

/-- Behind lines that leave nothing open, no raw string is open. -/
theorem insideRaw_unlines (hone : ∀ l ∈ ls, '\n' ∉ l) (h : s.through? ls = some .initial) :
    insideRaw s (unlines ls) = false := by
  rw [insideRaw, pieces_unlines hone, Scanner.through?_append, h, Option.bind_some,
    Scanner.through?_cons, Scanner.after?_nil]
  rfl

/-- Where no raw string is left open, a raw quote is the last thing that is read in one. -/
theorem rawChars_closed (h : insideRaw s (front ++ text) = false) :
    rawChars s front text = [] ∨ (rawChars s front text).getLast? = some rawQuote := by
  induction text generalizing front with
  | nil => exact .inl rfl
  | cons c text ih =>
    have ih := @ih (front ++ [c]) (by rwa [← List.append_cons])
    rw [rawChars]
    cases hin : insideRaw s front with
    | false => exact ih
    | true =>
      right
      obtain hnil | hlast := ih
      · -- nothing is read in a raw string behind this character, so it is the closing quote
        by_cases hc : c = rawQuote
        · rw [if_pos rfl, hnil, hc]
          rfl
        · have hon : insideRaw s (front ++ [c]) = true := insideRaw_concat hin hc
          cases text with
          | nil =>
            rw [hon] at h
            cases h
          | cons d text => simp [rawChars, hon] at hnil
      · obtain ⟨init, hinit⟩ := List.getLast?_eq_some_iff.1 hlast
        rw [if_pos rfl, hinit, ← List.cons_append, List.getLast?_concat]

theorem flatMap_pieces (sep : Char) (cs : List Char) :
    (pieces sep cs).flatMap (· ++ [sep]) = cs ++ [sep] := by
  induction cs with
  | nil => rfl
  | cons c cs ih =>
    rw [pieces]
    split
    · rename_i hc
      rw [List.flatMap_cons, ih, hc]
      rfl
    · obtain ⟨p, ps, hp⟩ := List.exists_cons_of_ne_nil (Text.pieces_ne_nil sep cs)
      rw [hp] at ih ⊢
      rw [List.flatMap_cons] at ih ⊢
      rw [List.cons_append, List.cons_append, ih]
      rfl

/-- What is cut at a separator is the pieces with the separator behind each. -/
theorem flatMap_dropLast_pieces {sep : Char} {cs : List Char}
    (h : cs = [] ∨ cs.getLast? = some sep) :
    (pieces sep cs).dropLast.flatMap (· ++ [sep]) = cs := by
  obtain rfl | h := h
  · rfl
  · obtain ⟨front, rfl⟩ := List.getLast?_eq_some_iff.1 h
    rw [Text.pieces_append, pieces, List.dropLast_concat, flatMap_pieces]

/-- Texts that leave no raw string open have the same raw strings where the scanner reads the same
characters in them. -/
theorem rawBodies_eq_iff {text text' : List Char} (h : insideRaw .initial text = false)
    (h' : insideRaw .initial text' = false) :
    rawBodies text = rawBodies text' ↔ rawChars .initial [] text = rawChars .initial [] text' := by
  constructor
  · intro heq
    have hjoin := congrArg (List.flatMap (· ++ [rawQuote])) heq
    rwa [rawBodies, rawBodies, flatMap_dropLast_pieces (rawChars_closed h),
      flatMap_dropLast_pieces (rawChars_closed h')] at hjoin
  · intro heq
    rw [rawBodies, heq, rawBodies]

/-- Cutting a text into lines and ending each of them gives the text, and ends its last line. -/
theorem unlines_lines (h : '\r' ∉ text) :
    unlines (lines text) = text ∨ unlines (lines text) = text ++ ['\n'] := by
  induction text with
  | nil => exact .inl rfl
  | cons c cs ih =>
    rw [List.mem_cons, not_or] at h
    have ih := ih h.2
    rw [lines]
    split
    · rename_i hc
      rw [unlines_cons, hc]
      simpa using ih
    · rw [if_neg (by simp [Ne.symm h.1])]
      cases cs with
      | nil => exact .inr rfl
      | cons d cs =>
        obtain ⟨l, ls, hl⟩ := List.exists_cons_of_ne_nil (Text.lines_ne_nil (List.cons_ne_nil d cs))
        rw [hl, unlines_cons] at ih
        rw [hl]
        simp only [List.head?_cons]
        rw [unlines_cons]
        simpa using ih

/-- Ending the last line of a text makes no difference to raw strings. -/
theorem rawChars_unlines_lines (hr : '\r' ∉ text)
    (h : insideRaw .initial (unlines (lines text)) = false) :
    insideRaw .initial text = false ∧
      rawChars .initial [] (unlines (lines text)) = rawChars .initial [] text := by
  obtain heq | heq := unlines_lines hr
  · rw [heq] at h ⊢
    exact ⟨h, rfl⟩
  · rw [heq, insideRaw_newline] at h
    refine ⟨h, ?_⟩
    rw [heq, rawChars_append, List.nil_append, rawChars, h]
    simp [rawChars]

/-- Laying out a text without carriage returns leaves its raw strings as they are if and only if no
line ends in white space that begins outside raw strings and ends inside one. -/
theorem rawBodies_kept_iff {text : String} {out : ByteArray} (hr : '\r' ∉ text.toList)
    (h : canonicalBytes text.toUTF8 = .ok out) :
    ∃ laid : String, out = laid.toUTF8 ∧
      (rawBodies laid.toList = rawBodies text.toList ↔
        AtEachLine KeepsOpening .initial (lines text.toList)) := by
  obtain ⟨ls, hlays, hlaid, rfl⟩ := exists_lays h
  have hone : ∀ l ∈ lines text.toList, '\n' ∉ l := fun l hl => newline_not_mem_of_mem_lines hl
  obtain ⟨hin, hout⟩ := hlays.through_eq
  obtain ⟨htext, hsame⟩ := rawChars_unlines_lines hr (insideRaw_unlines hone hin)
  refine ⟨String.ofList (unlines ls), rfl, ?_⟩
  rw [String.toList_ofList, rawBodies_eq_iff (insideRaw_unlines hlaid hout) htext, ← hsame]
  exact (hlays.keeps hone).eq_iff

def reopened : String := "f(\x60a\n \x60, \x60b \n\x60) /* \x60 \n*/\n"

/-- A line that closes one raw string and opens the next one may end in white space. -/
theorem rawBodies_kept_iff_reopened :
    '\r' ∉ reopened.toList ∧ canonicalBytes reopened.toUTF8 = .ok reopened.toUTF8 ∧
      ∃ laid : String, reopened.toUTF8 = laid.toUTF8 ∧
        (rawBodies laid.toList = rawBodies reopened.toList ↔
          AtEachLine KeepsOpening .initial (lines reopened.toList)) := by
  have hr : '\r' ∉ reopened.toList := by decide
  have h : canonicalBytes reopened.toUTF8 = .ok reopened.toUTF8 :=
    canonicalBytes_ok_of_canonical (by cbv)
  exact ⟨hr, h, rawBodies_kept_iff hr h⟩

def opened : String := "var s = \x60a \nb\x60\n"

/-- A raw string loses the white space that ends its first line. -/
theorem rawBodies_opened :
    '\r' ∉ opened.toList ∧
      canonicalBytes opened.toUTF8 = .ok "var s = \x60a\nb\x60\n".toUTF8 ∧
      rawBodies opened.toList = ["a \nb".toList] ∧
      rawBodies "var s = \x60a\nb\x60\n".toList = ["a\nb".toList] ∧
      rawBodies "var s = \x60a\nb\x60\n".toList ≠ rawBodies opened.toList := by
  have hin : rawBodies opened.toList = ["a \nb".toList] := by cbv
  have hout : rawBodies "var s = \x60a\nb\x60\n".toList = ["a\nb".toList] := by cbv
  refine ⟨by decide, canonicalBytes_ok_of_canonical (by cbv), hin, hout, ?_⟩
  rw [hin, hout]
  decide

end Layout
end ResetMethods
