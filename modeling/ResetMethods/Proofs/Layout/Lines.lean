import Mathlib.Data.List.Basic
import ResetMethods.Proofs.Layout.Reading
import ResetMethods.Proofs.Layout.Settled

/-!
# ResetMethods.Proofs.Layout.Lines

What the layout makes of each line of a text that it accepts.

* `Scanner.after?`, `Scanner.through?`: what is open behind a line, and behind some lines. Line
  numbers only matter for the offences, so these go without (`scanLine_eq_ok_iff`).
* `Lays`: which lines the layout puts for which, one constructor for each way in which the layout
  treats a line. `layoutFrom_eq_ok_iff` says that this is all that an accepting layout does, and
  `canonicalBytes_eq_ok_iff` says it of a whole text.
* `AtEachLine`: a property of the lines of a text and of what is open where they begin.
-/

namespace ResetMethods
namespace Layout

open Text (lines trim trimStart trimEnd isBlank)

/-! ## The scanner behind a line -/

/-- What is open behind a line, if the line does not offend. -/
def Scanner.after? (s : Scanner) (l : List Char) : Option Scanner := (scanLine 0 s l).toOption

/-- What is open behind some lines, if none of them offends. -/
def Scanner.through? (s : Scanner) (ls : List (List Char)) : Option Scanner :=
  ls.foldlM Scanner.after? s

variable {m n : Nat} {s s' t : Scanner} {l raw text : List Char} {ls rest out : List (List Char)}
  {previous : Option (List Char)} {pending : Bool}

/-- The number of a line is the number in its offence, and nothing else. -/
theorem scan_renumber (m n : Nat) :
    (∀ stack cs, ∀ s, scanCode m stack cs = .ok s → scanCode n stack cs = .ok s) ∧
    (∀ stack quote cs, ∀ s, scanQuoted m stack quote cs = .ok s →
      scanQuoted n stack quote cs = .ok s) ∧
    (∀ stack cs, ∀ s, scanRaw m stack cs = .ok s → scanRaw n stack cs = .ok s) ∧
    (∀ stack cs, ∀ s, scanComment m stack cs = .ok s → scanComment n stack cs = .ok s) := by
  apply scanCode.mutual_induct
  all_goals simp_all [scanCode, scanQuoted, scanRaw, scanComment]

theorem scanLine_renumber (h : scanLine m s l = .ok s') (n : Nat) : scanLine n s l = .ok s' := by
  obtain ⟨hcode, -, hraw, hcomment⟩ := scan_renumber m n
  unfold scanLine at h ⊢
  cases hs : s.mode with
  | code => simp only [hs] at h ⊢; exact hcode _ _ _ h
  | rawString => simp only [hs] at h ⊢; exact hraw _ _ _ h
  | blockComment => simp only [hs] at h ⊢; exact hcomment _ _ _ h

theorem scanLine_eq_ok_iff : scanLine n s l = .ok s' ↔ s.after? l = some s' := by
  constructor
  · intro h
    rw [Scanner.after?, scanLine_renumber h 0]
    rfl
  · intro h
    have h0 : scanLine 0 s l = .ok s' := by
      cases hs : scanLine 0 s l with
      | error e => simp [Scanner.after?, hs, Except.toOption] at h
      | ok t => simpa [Scanner.after?, hs, Except.toOption] using h
    exact scanLine_renumber h0 n

theorem blank_tabs (k : Nat) : ∀ c ∈ List.replicate k '\t', isBlank c = true := by
  intro c hc
  rw [List.eq_of_mem_replicate hc, isBlank_tab]

namespace Scanner

theorem after?_nil (s : Scanner) : s.after? [] = some s :=
  scanLine_eq_ok_iff.1 (scanLine_nil 0 s)

theorem through?_nil (s : Scanner) : s.through? [] = some s := rfl

theorem through?_cons (s : Scanner) (l : List Char) (ls : List (List Char)) :
    s.through? (l :: ls) = (s.after? l).bind fun s' => s'.through? ls := by
  rw [through?, List.foldlM_cons]
  rfl

theorem through?_append (s : Scanner) (ls ls' : List (List Char)) :
    s.through? (ls ++ ls') = (s.through? ls).bind fun s' => s'.through? ls' := by
  rw [through?, List.foldlM_append]
  rfl

theorem after?_append_blank {bs : List Char} (hb : ∀ b ∈ bs, isBlank b = true) (s : Scanner)
    (l : List Char) : s.after? (l ++ bs) = s.after? l := by
  induction bs generalizing l with
  | nil => simp
  | cons b bs ih =>
    obtain ⟨hb, hbs⟩ := List.forall_mem_cons.1 hb
    rw [List.append_cons, ih hbs, after?, scanLine_concat hb, after?]

theorem after?_trimEnd (s : Scanner) (l : List Char) : s.after? (trimEnd l) = s.after? l := by
  obtain ⟨bs, hl, hb⟩ := exists_blank_end l
  have h := after?_append_blank hb s (trimEnd l)
  rw [← hl] at h
  exact h.symm

theorem after?_trim (hs : s.mode = .code) (l : List Char) : s.after? (trim l) = s.after? l := by
  simp only [after?, scanLine, hs, scanCode_trim]

/-- White space leaves what is open as it is. -/
theorem after?_blank (h : ∀ c ∈ l, isBlank c = true) (s : Scanner) : s.after? l = some s := by
  have hl := after?_append_blank h s []
  rwa [List.nil_append, after?_nil] at hl

/-- White space in front of code means nothing. -/
theorem after?_blank_append {bs : List Char} (hs : s.mode = .code)
    (hb : ∀ b ∈ bs, isBlank b = true) (l : List Char) : s.after? (bs ++ l) = s.after? l := by
  have hstart : trimStart (bs ++ l) = trimStart l := List.dropWhile_append_of_pos hb
  simp only [after?, scanLine, hs]
  rw [← scanCode_trimStart, hstart, scanCode_trimStart]

/-- Laying a line of code out leaves what is open behind it as it is. -/
theorem after?_indented_trim (hs : s.mode = .code) (l : List Char) :
    s.after? (indented s (trim l)) = s.after? l := by
  rw [indented, after?_blank_append hs (blank_tabs _), after?_trim hs]

end Scanner

/-! ## White space -/

theorem exists_blank_start (cs : List Char) :
    ∃ bs, cs = bs ++ trimStart cs ∧ ∀ b ∈ bs, isBlank b = true := by
  refine ⟨cs.takeWhile isBlank, List.takeWhile_append_dropWhile.symm, fun b hb => ?_⟩
  exact List.all_eq_true.1 List.all_takeWhile b hb

theorem trimEnd_sublist (l : List Char) : (trimEnd l).Sublist l := by
  have h := (List.dropWhile_sublist isBlank (l := l.reverse)).reverse
  rwa [List.reverse_reverse] at h

theorem trim_sublist (l : List Char) : (trim l).Sublist l :=
  (trimEnd_sublist _).trans (List.dropWhile_sublist isBlank)

/-- What is trimmed at its end is empty or ends in something visible. -/
theorem ends_trimEnd (l : List Char) : trimEnd l = [] ∨ Ends (trimEnd l) := by
  cases h : l.reverse.dropWhile isBlank with
  | nil => exact .inl (by rw [trimEnd, h]; rfl)
  | cons c cs =>
    refine .inr ⟨cs.reverse, c, by rw [trimEnd, h]; simp, ?_⟩
    have hc := List.head_dropWhile_not isBlank (l := l.reverse) (by simp [h])
    simpa [h] using hc

theorem trimEnd_of_ends (h : l = [] ∨ Ends l) : trimEnd l = l := by
  obtain rfl | ⟨cs, c, rfl, hc⟩ := h
  · rfl
  · simp [trimEnd, hc]

/-- What is trimmed is empty or has something visible at both ends. -/
theorem ends_trim (h : trim l ≠ []) :
    (∃ c cs, trim l = c :: cs ∧ isBlank c = false) ∧ Ends (trim l) := by
  have hends := (ends_trimEnd (trimStart l)).resolve_left h
  refine ⟨?_, hends⟩
  cases ht : trimStart l with
  | nil => exact absurd (by simp [trim, ht, trimEnd]) h
  | cons c cs =>
    have hc := List.head_dropWhile_not isBlank (l := l) (by
      rw [trimStart] at ht
      simp [ht])
    have hb : isBlank c = false := by
      rw [trimStart] at ht
      simpa [ht] using hc
    obtain ⟨bs, hbs, -⟩ := exists_blank_end (c :: cs)
    rw [trim, ht] at h ⊢
    cases hte : trimEnd (c :: cs) with
    | nil => exact absurd hte h
    | cons d ds =>
      rw [hte, List.cons_append, List.cons.injEq] at hbs
      exact ⟨d, ds, rfl, hbs.1 ▸ hb⟩

/-- White space alone, or nothing. -/
def IsBlankLine (l : List Char) : Prop := ∀ c ∈ l, isBlank c = true

instance (l : List Char) : Decidable (IsBlankLine l) :=
  inferInstanceAs (Decidable (∀ c ∈ l, isBlank c = true))

theorem trim_eq_nil_iff : trim l = [] ↔ IsBlankLine l := by
  obtain ⟨front, hfront, hf⟩ := exists_blank_start l
  obtain ⟨bs, hbs, hb⟩ := exists_blank_end (trimStart l)
  constructor
  · intro h c hc
    rw [trim] at h
    rw [hfront, hbs, h, List.nil_append, List.mem_append] at hc
    obtain hc | hc := hc
    · exact hf c hc
    · exact hb c hc
  · intro h
    have hstart : trimStart l = [] := by
      rw [trimStart, ← List.append_nil l, List.dropWhile_append_of_pos h]
      rfl
    rw [trim, hstart]
    rfl

theorem trim_indented_trim (h : ¬ IsBlankLine raw) (k : Nat) :
    trim (List.replicate k '\t' ++ trim raw) = trim raw := by
  rw [← trim_eq_nil_iff] at h
  obtain ⟨⟨c, cs, ht, hc⟩, hends⟩ := ends_trim h
  rw [ht] at hends ⊢
  exact trim_indented hc hends k

theorem trim_trim (h : ¬ IsBlankLine raw) : trim (trim raw) = trim raw :=
  trim_indented_trim h 0

theorem trim_indented_eq (h : ¬ IsBlankLine raw) (s : Scanner) :
    trim (indented s (trim raw)) = trim raw :=
  trim_indented_trim h _

theorem not_isBlankLine_indented (h : ¬ IsBlankLine raw) (s : Scanner) :
    ¬ IsBlankLine (indented s (trim raw)) := by
  rw [← trim_eq_nil_iff] at h ⊢
  rwa [trim_indented_eq (by rwa [← trim_eq_nil_iff])]

/-! ## What becomes of each line -/

/-- The blank line that is kept before a line of code, if any. -/
def gap (previous : Option (List Char)) (pending : Bool) (text : List Char) : List (List Char) :=
  if pending && !previous.any opensBlock && leadingClosers text == 0 then [[]] else []

/-- Where a blank line is kept, blank lines came, and it is kept whenever they come. -/
theorem gap_cases (previous : Option (List Char)) (pending : Bool) (text : List Char) :
    gap previous pending text = [] ∨
      gap previous pending text = [[]] ∧ pending = true ∧ gap previous true text = [[]] := by
  cases pending with
  | false => exact .inl (by simp [gap])
  | true =>
    by_cases h : (true && !previous.any opensBlock && leadingClosers text == 0) = true
    · exact .inr ⟨if_pos h, rfl, if_pos h⟩
    · exact .inl (if_neg h)

theorem eq_nil_of_mem_gap (h : l ∈ gap previous pending text) : l = [] := by
  obtain hgap | ⟨hgap, -⟩ := gap_cases previous pending text
  · rw [hgap] at h
    cases h
  · rw [hgap] at h
    exact List.mem_singleton.1 h

theorem gap_false (previous : Option (List Char)) (text : List Char) :
    gap previous false text = [] := by
  simp [gap]

/-- The second lines are laid out for the first: `s` is open before them, `previous` is the line
above, and `pending` says whether blank lines came since. -/
inductive Lays : Scanner → Option (List Char) → Bool → List (List Char) → List (List Char) → Prop
  where
  | done {s : Scanner} {previous : Option (List Char)} {pending : Bool} :
      s.close = .ok () → Lays s previous pending [] []
  | blank {s : Scanner} {previous : Option (List Char)} {pending : Bool} {raw : List Char}
      {rest below : List (List Char)} :
      s.mode = .code → IsBlankLine raw → Lays s previous previous.isSome rest below →
      Lays s previous pending (raw :: rest) below
  | code {s s' : Scanner} {previous : Option (List Char)} {pending : Bool} {raw : List Char}
      {rest below : List (List Char)} :
      s.mode = .code → ¬ IsBlankLine raw → s.after? raw = some s' →
      Lays s' (some (indented s (trim raw))) false rest below →
      Lays s previous pending (raw :: rest)
        (gap previous pending (trim raw) ++ indented s (trim raw) :: below)
  | rawString {s s' : Scanner} {previous : Option (List Char)} {pending : Bool} {raw : List Char}
      {rest below : List (List Char)} :
      s.mode = .rawString → s.after? raw = some s' → Lays s' (some raw) pending rest below →
      Lays s previous pending (raw :: rest) (raw :: below)
  | blockComment {s s' : Scanner} {previous : Option (List Char)} {pending : Bool}
      {raw : List Char} {rest below : List (List Char)} :
      s.mode = .blockComment → s.after? raw = some s' →
      Lays s' (some (trimEnd raw)) pending rest below →
      Lays s previous pending (raw :: rest) (trimEnd raw :: below)

/-- What a computation with a result went through on the way. -/
theorem exists_of_bind_eq_ok {α β : Type} {x : Except FormatError α} {f : α → Except FormatError β}
    {b : β} (h : (x >>= f) = .ok b) : ∃ a, x = .ok a ∧ f a = .ok b := by
  cases x with
  | error e => cases h
  | ok a => exact ⟨a, rfl, h⟩

theorem lays_of_layoutFrom (h : layoutFrom n s previous pending ls = .ok out) :
    Lays s previous pending ls out := by
  induction ls generalizing n s previous pending out with
  | nil =>
    rw [layoutFrom] at h
    obtain ⟨u, hclose, h⟩ := exists_of_bind_eq_ok h
    cases h
    exact .done hclose
  | cons raw rest ih =>
    rw [layoutFrom] at h
    cases hs : s.mode with
    | code =>
      simp only [hs] at h
      split at h
      · rename_i hempty
        exact .blank hs (trim_eq_nil_iff.1 (List.isEmpty_iff.1 hempty)) (ih h)
      · rename_i hempty
        obtain ⟨s', hscan, h⟩ := exists_of_bind_eq_ok h
        obtain ⟨below, hbelow, h⟩ := exists_of_bind_eq_ok h
        have hvisible : ¬ IsBlankLine raw := by
          rwa [← trim_eq_nil_iff, ← List.isEmpty_iff]
        have hafter : s.after? raw = some s' := by
          rw [← Scanner.after?_trim hs]
          exact scanLine_eq_ok_iff.1 hscan
        have hout : out = gap previous pending (trim raw) ++ indented s (trim raw) :: below := by
          rw [← Except.ok.inj h, gap]
          split <;> rfl
        rw [hout]
        exact .code hs hvisible hafter (ih hbelow)
    | rawString =>
      simp only [hs, if_true] at h
      obtain ⟨s', hscan, h⟩ := exists_of_bind_eq_ok h
      obtain ⟨below, hbelow, h⟩ := exists_of_bind_eq_ok h
      cases h
      exact .rawString hs (scanLine_eq_ok_iff.1 hscan) (ih hbelow)
    | blockComment =>
      simp only [hs, reduceCtorEq, if_false] at h
      obtain ⟨s', hscan, h⟩ := exists_of_bind_eq_ok h
      obtain ⟨below, hbelow, h⟩ := exists_of_bind_eq_ok h
      cases h
      exact .blockComment hs (scanLine_eq_ok_iff.1 hscan) (ih hbelow)

theorem Lays.layoutFrom_eq (h : Lays s previous pending ls out) (n : Nat) :
    layoutFrom n s previous pending ls = .ok out := by
  induction h generalizing n with
  | done hc => rw [layoutFrom, hc]; rfl
  | blank hs hb _ ih =>
    rw [layoutFrom]
    simp only [hs, trim_eq_nil_iff.2 hb, List.isEmpty_nil, if_true]
    exact ih (n + 1)
  | @code s s' previous pending raw rest below hs hb ha _ ih =>
    have hscan : scanLine n s (trim raw) = .ok s' := by
      rw [scanLine_eq_ok_iff, Scanner.after?_trim hs]
      exact ha
    have hne : (trim raw).isEmpty = false := by
      rw [List.isEmpty_eq_false_iff, ne_eq, trim_eq_nil_iff]
      exact hb
    rw [layoutFrom]
    simp only [hs, hne, hscan, ih (n + 1), bind, Except.bind, pure, Except.pure, gap]
    cases pending && !previous.any opensBlock && leadingClosers (trim raw) == 0 <;> rfl
  | @rawString s s' _ _ raw _ _ hs ha _ ih =>
    have hscan : scanLine n s raw = .ok s' := scanLine_eq_ok_iff.2 ha
    rw [layoutFrom]
    simp only [hs, if_true, hscan, ih (n + 1), bind, Except.bind]
    rfl
  | @blockComment s s' _ _ raw _ _ hs ha _ ih =>
    have hscan : scanLine n s raw = .ok s' := scanLine_eq_ok_iff.2 ha
    rw [layoutFrom]
    simp only [hs, reduceCtorEq, if_false, hscan, ih (n + 1), bind, Except.bind]
    rfl

/-- The layout accepts lines by putting for each what `Lays` says. -/
theorem layoutFrom_eq_ok_iff :
    layoutFrom n s previous pending ls = .ok out ↔ Lays s previous pending ls out :=
  ⟨lays_of_layoutFrom, fun h => h.layoutFrom_eq n⟩

/-- A text may end where nothing is open. -/
theorem close_eq_ok_iff : s.close = .ok () ↔ s = .initial := by
  obtain ⟨mode, stack⟩ := s
  cases mode <;> cases stack <;> simp [Scanner.close, Scanner.initial]

/-- The scanner gets through lines that are laid out, and leaves nothing open. -/
theorem Lays.through_eq (h : Lays s previous pending ls out) :
    s.through? ls = some .initial ∧ s.through? out = some .initial := by
  induction h with
  | done hc =>
    rw [close_eq_ok_iff.1 hc]
    exact ⟨rfl, rfl⟩
  | @blank s _ _ raw rest below hs hb _ ih =>
    rw [Scanner.through?_cons, Scanner.after?_blank hb]
    exact ih
  | @code s s' previous pending raw rest below hs _ ha _ ih =>
    have hgap : s.through? (gap previous pending (trim raw)) = some s := by
      obtain hgap | ⟨hgap, -⟩ := gap_cases previous pending (trim raw)
      · rw [hgap, Scanner.through?_nil]
      · rw [hgap, Scanner.through?_cons, Scanner.after?_nil]
        rfl
    rw [Scanner.through?_cons, Scanner.through?_append, hgap, Option.bind_some,
      Scanner.through?_cons, Scanner.after?_indented_trim hs, ha]
    exact ih
  | rawString _ ha _ ih =>
    rw [Scanner.through?_cons, Scanner.through?_cons, ha]
    exact ih
  | blockComment _ ha _ ih =>
    rw [Scanner.through?_cons, Scanner.through?_cons, Scanner.after?_trimEnd, ha]
    exact ih

/-! ## Lines of a text -/

theorem unlines_cons (l : List Char) (ls : List (List Char)) :
    unlines (l :: ls) = l ++ '\n' :: unlines ls := by
  simp [unlines]

theorem newline_not_mem_of_mem_lines (h : l ∈ lines text) : '\n' ∉ l := by
  induction text generalizing l with
  | nil => cases h
  | cons c cs ih =>
    rw [lines] at h
    split at h
    · obtain rfl | h := List.mem_cons.1 h
      · simp
      · exact ih h
    · rename_i hc
      split at h
      · exact ih h
      · split at h
        · rename_i first rest d hlines hd
          rw [hlines] at ih
          obtain rfl | h := List.mem_cons.1 h
          · rw [List.mem_cons, not_or]
            exact ⟨Ne.symm hc, ih List.mem_cons_self⟩
          · exact ih (List.mem_cons_of_mem _ h)
        · obtain rfl | h := List.mem_cons.1 h
          · simpa using Ne.symm hc
          · exact ih h

/-- A line without the carriage return that a line break behind it takes along. -/
def dropReturn (l : List Char) : List Char := if l.getLast? = some '\r' then l.dropLast else l

theorem dropReturn_of_ne (h : l.getLast? ≠ some '\r') : dropReturn l = l := if_neg h

theorem dropReturn_concat (l : List Char) : dropReturn (l ++ ['\r']) = l := by
  simp [dropReturn]

theorem lines_append_return (h : '\n' ∉ l) (rest : List Char) :
    lines (l ++ '\r' :: '\n' :: rest) = l :: lines rest := by
  induction l with
  | nil => simp [lines]
  | cons c l ih =>
    rw [List.mem_cons, not_or] at h
    obtain ⟨d, more, hd, hbreak⟩ :
        ∃ d more, l ++ '\r' :: '\n' :: rest = d :: more ∧ d ≠ '\n' := by
      cases l with
      | nil => exact ⟨_, _, rfl, by decide⟩
      | cons d l =>
        rw [List.mem_cons, not_or] at h
        exact ⟨d, _, rfl, Ne.symm h.2.1⟩
    have ih := ih h.2
    rw [hd] at ih
    rw [List.cons_append, hd, lines, if_neg (Ne.symm h.1), if_neg (by simp [hbreak]), ih]
    rfl

/-- Ended lines are cut into the same lines again, less a carriage return at the end of each. -/
theorem lines_unlines_eq (h : ∀ l ∈ ls, '\n' ∉ l) : lines (unlines ls) = ls.map dropReturn := by
  induction ls with
  | nil => rfl
  | cons l ls ih =>
    obtain ⟨hl, h⟩ := List.forall_mem_cons.1 h
    rw [unlines_cons, List.map_cons, ← ih h]
    by_cases hr : l.getLast? = some '\r'
    · obtain ⟨front, rfl⟩ := List.getLast?_eq_some_iff.1 hr
      rw [dropReturn_concat, List.append_assoc]
      exact lines_append_return (fun hm => hl (List.mem_append_left _ hm)) (unlines ls)
    · rw [dropReturn_of_ne hr]
      exact lines_append hl hr (unlines ls)

theorem newline_not_mem_indented (h : '\n' ∉ raw) (s : Scanner) :
    '\n' ∉ indented s (trim raw) := by
  rw [indented, List.mem_append, not_or]
  refine ⟨fun hm => ?_, fun hm => h ((trim_sublist raw).mem hm)⟩
  cases List.eq_of_mem_replicate hm

/-- What is laid out for lines are lines. -/
theorem Lays.oneLine (h : Lays s previous pending ls out) (hls : ∀ l ∈ ls, '\n' ∉ l) :
    ∀ l ∈ out, '\n' ∉ l := by
  induction h with
  | done => simp
  | blank _ _ _ ih => exact ih (List.forall_mem_cons.1 hls).2
  | @code s _ previous pending raw rest below _ _ _ _ ih =>
    obtain ⟨hraw, hrest⟩ := List.forall_mem_cons.1 hls
    intro l hl
    rw [List.mem_append, List.mem_cons] at hl
    obtain hl | rfl | hl := hl
    · simp [eq_nil_of_mem_gap hl]
    · exact newline_not_mem_indented hraw s
    · exact ih hrest l hl
  | rawString _ _ _ ih =>
    obtain ⟨hraw, hrest⟩ := List.forall_mem_cons.1 hls
    exact List.forall_mem_cons.2 ⟨hraw, ih hrest⟩
  | blockComment _ _ _ ih =>
    obtain ⟨hraw, hrest⟩ := List.forall_mem_cons.1 hls
    exact List.forall_mem_cons.2 ⟨fun hm => hraw ((trimEnd_sublist _).mem hm), ih hrest⟩

/-- The layout accepts a text by laying out its lines. -/
theorem canonicalBytes_eq_ok_iff {text : String} {out : ByteArray} :
    canonicalBytes text.toUTF8 = .ok out ↔
      ∃ ls, Lays .initial none false (lines text.toList) ls ∧
        out = (String.ofList (unlines ls)).toUTF8 := by
  simp only [canonicalBytes, fromUTF8?_toUTF8, canonical, ← layoutFrom_eq_ok_iff (n := 1)]
  cases layoutFrom 1 .initial none false (lines text.toList) with
  | error e => simp [Functor.map, Except.map]
  | ok ls => simp [Functor.map, Except.map, eq_comm]

/-- What an accepted text is laid out as. -/
theorem exists_lays {text : String} {out : ByteArray} (h : canonicalBytes text.toUTF8 = .ok out) :
    ∃ ls, Lays .initial none false (lines text.toList) ls ∧ (∀ l ∈ ls, '\n' ∉ l) ∧
      out = (String.ofList (unlines ls)).toUTF8 := by
  obtain ⟨ls, hlays, hout⟩ := canonicalBytes_eq_ok_iff.1 h
  exact ⟨ls, hlays, hlays.oneLine fun l hl => newline_not_mem_of_mem_lines hl, hout⟩

theorem canonicalBytes_ok_of_canonical {text laid : String}
    (h : canonical text.toList = .ok laid.toList) :
    canonicalBytes text.toUTF8 = .ok laid.toUTF8 := by
  rw [canonicalBytes, fromUTF8?_toUTF8]
  simp only [h]
  simp [Functor.map, Except.map]

/-! ## Properties of lines -/

/-- A property of each line and of what is open where the line begins. -/
def AtEachLine (P : Scanner → List Char → Prop) (s : Scanner) (ls : List (List Char)) : Prop :=
  ∀ before l after t, ls = before ++ l :: after → s.through? before = some t → P t l

variable {P : Scanner → List Char → Prop}

theorem atEachLine_nil (P : Scanner → List Char → Prop) (s : Scanner) : AtEachLine P s [] := by
  intro before l after t h
  simp at h

theorem atEachLine_cons (h : s.after? l = some s') :
    AtEachLine P s (l :: ls) ↔ P s l ∧ AtEachLine P s' ls := by
  constructor
  · intro hl
    refine ⟨hl [] l ls s rfl rfl, fun before m after t hls ht => ?_⟩
    refine hl (l :: before) m after t (by rw [hls]; rfl) ?_
    rw [Scanner.through?_cons, h]
    exact ht
  · rintro ⟨hl, hls⟩ before m after t hsplit ht
    cases before with
    | nil =>
      cases hsplit
      cases ht
      exact hl
    | cons b before =>
      cases hsplit
      rw [Scanner.through?_cons, h] at ht
      exact hls before m after t rfl ht

end Layout
end ResetMethods
