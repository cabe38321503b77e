import ResetMethods.Layout.Canonical
import ResetMethods.Proofs.Layout.Closed
import ResetMethods.Reset.Statement

/-!
# ResetMethods.Proofs.Layout.Settled

Lines that are laid out already.

* `lines_unlines`: ended lines are cut into the same lines again.
* `Steady`: a line of code at the indentation that the open delimiters ask for.
* `Settled`: lines that the layout leaves as they are. `Settled.cons` puts a steady line before them
  and `Settled.blank` a blank one.
* `Steady.code`, `Steady.opening`, `Steady.closing`, `Steady.branch`: the kinds of steady lines.
* `Block`, `separated`: lines that may be parted from the next ones by a blank line.
* `Settled.canonicalBytes`: the layout of settled lines as a text.
-/

namespace ResetMethods
namespace Layout

open Text (lines trim trimStart trimEnd isBlank)

/-! ## Cutting into lines -/

theorem lines_append {l : List Char} (hn : '\n' ∉ l) (hr : l.getLast? ≠ some '\r')
    (rest : List Char) : lines (l ++ '\n' :: rest) = l :: lines rest := by
  induction l with
  | nil => rw [List.nil_append, lines, if_pos rfl]
  | cons c l ih =>
    have hc : c ≠ '\n' := by
      rintro rfl
      exact hn List.mem_cons_self
    have hl : '\n' ∉ l := fun hm => hn (List.mem_cons_of_mem _ hm)
    have hbreak : ¬ (c = '\r' ∧ (l ++ '\n' :: rest).head? = some '\n') := by
      rintro ⟨rfl, hh⟩
      cases l with
      | nil => exact hr rfl
      | cons d l =>
        cases hh
        exact hl List.mem_cons_self
    have hlast : l.getLast? ≠ some '\r' := by
      cases l with
      | nil => simp
      | cons d l => simpa using hr
    have hhead : ∃ d, (l ++ '\n' :: rest).head? = some d := by
      cases l with
      | nil => exact ⟨_, rfl⟩
      | cons d l => exact ⟨_, rfl⟩
    obtain ⟨d, hd⟩ := hhead
    rw [List.cons_append, lines, if_neg hc, if_neg hbreak, ih hl hlast, hd]

theorem lines_unlines {ls : List (List Char)}
    (h : ∀ l ∈ ls, '\n' ∉ l ∧ l.getLast? ≠ some '\r') : lines (unlines ls) = ls := by
  induction ls with
  | nil => rfl
  | cons l ls ih =>
    obtain ⟨⟨hn, hr⟩, h⟩ := List.forall_mem_cons.1 h
    have hu : unlines (l :: ls) = l ++ '\n' :: unlines ls := by simp [unlines]
    rw [hu, lines_append hn hr, ih h]

/-! ## Trimming -/

/-- A line of code starts with something visible that closes nothing. -/
def Starts (text : List Char) : Prop :=
  ∃ c cs, text = c :: cs ∧ isBlank c = false ∧ isCloser c = false

def Ends (text : List Char) : Prop := ∃ cs c, text = cs ++ [c] ∧ isBlank c = false

theorem Starts.append {a : List Char} (h : Starts a) (b : List Char) : Starts (a ++ b) := by
  obtain ⟨c, cs, rfl, hb, hc⟩ := h
  exact ⟨c, cs ++ b, rfl, hb, hc⟩

theorem Ends.append {b : List Char} (h : Ends b) (a : List Char) : Ends (a ++ b) := by
  obtain ⟨cs, c, rfl, hb⟩ := h
  exact ⟨a ++ cs, c, by rw [List.append_assoc], hb⟩

theorem Starts.concat {s : String} (h : Starts s.toList) (t : String) : Starts (s ++ t).toList := by
  rw [String.toList_append]
  exact h.append _

theorem Ends.concat {t : String} (h : Ends t.toList) (s : String) : Ends (s ++ t).toList := by
  rw [String.toList_append]
  exact h.append _

theorem starts_literal {text : String}
    (h : (text.toList.head?.any fun c => !isBlank c && !isCloser c) = true) :
    Starts text.toList := by
  cases ht : text.toList with
  | nil => simp [ht] at h
  | cons c cs =>
    simp only [ht, List.head?_cons, Option.any_some, Bool.and_eq_true, Bool.not_eq_true'] at h
    exact ⟨c, cs, rfl, h.1, h.2⟩

theorem ends_literal {text : String} (h : (text.toList.getLast?.any fun c => !isBlank c) = true) :
    Ends text.toList := by
  cases ht : text.toList.getLast? with
  | none => simp [ht] at h
  | some c =>
    obtain ⟨cs, hcs⟩ := List.getLast?_eq_some_iff.1 ht
    simp only [ht, Option.any_some, Bool.not_eq_true'] at h
    exact ⟨cs, c, hcs, h⟩

theorem leadingClosers_of_starts {text : List Char} (h : Starts text) :
    leadingClosers text = 0 := by
  obtain ⟨c, cs, rfl, -, hc⟩ := h
  rw [leadingClosers, List.takeWhile_cons_of_neg (by simp [hc]), List.length_nil]

theorem isBlank_tab : isBlank '\t' = true := by decide

theorem trimStart_indented {c : Char} (hc : isBlank c = false) (k : Nat) (cs : List Char) :
    trimStart (List.replicate k '\t' ++ c :: cs) = c :: cs := by
  rw [trimStart, List.dropWhile_append_of_pos]
  · rw [List.dropWhile_cons_of_neg (by simp [hc])]
  · intro d hd
    rw [List.eq_of_mem_replicate hd, isBlank_tab]

/-- Trimming takes the indentation away and nothing else. -/
theorem trim_indented {c : Char} {cs : List Char} (hc : isBlank c = false)
    (he : Ends (c :: cs)) (k : Nat) : trim (List.replicate k '\t' ++ c :: cs) = c :: cs := by
  obtain ⟨init, d, hd, hb⟩ := he
  rw [trim, trimStart_indented hc, trimEnd, hd, List.reverse_append, List.reverse_singleton,
    List.singleton_append, List.dropWhile_cons_of_neg (by simp [hb]), List.reverse_cons,
    List.reverse_reverse]

/-! ## Steady lines -/

/-- The characters of a line with its indentation. -/
def chars (l : Line) : List Char := List.replicate l.indent '\t' ++ l.text.toList

/-- A line of code at the indentation that the open delimiters `stack` ask for. Behind it `stack'`
are open. -/
structure Steady (stack : List Char) (l : Line) (stack' : List Char) : Prop where
  indent : stack.length = l.indent + leadingClosers l.text.toList
  starts : ∃ c cs, l.text.toList = c :: cs ∧ isBlank c = false
  ends : Ends l.text.toList
  oneLine : '\n' ∉ l.text.toList
  scan : ∀ n, scanCode n stack l.text.toList = .ok ⟨.code, stack'⟩

namespace Steady

variable {stack stack' : List Char} {l : Line}

theorem trim_eq (h : Steady stack l stack') : trim (chars l) = l.text.toList := by
  obtain ⟨c, cs, hc, hb⟩ := h.starts
  have he := h.ends
  rw [chars]
  rw [hc] at he ⊢
  exact trim_indented hb he l.indent

theorem indented_eq (h : Steady stack l stack') :
    indented ⟨.code, stack⟩ l.text.toList = chars l := by
  have hi : stack.length - leadingClosers l.text.toList = l.indent := by
    have hl := h.indent
    omega
  rw [indented, hi, chars]

theorem separate (h : Steady stack l stack') :
    '\n' ∉ chars l ∧ (chars l).getLast? ≠ some '\r' := by
  constructor
  · rw [chars, List.mem_append, not_or]
    refine ⟨fun hm => ?_, h.oneLine⟩
    have ht := List.eq_of_mem_replicate hm
    revert ht
    decide
  · obtain ⟨cs, c, hc, hb⟩ := h.ends
    rw [chars, hc, ← List.append_assoc, List.getLast?_append, List.getLast?_singleton,
      Option.some_or]
    intro hr
    cases hr
    revert hb
    decide

end Steady

/-! ## Settled lines -/

/-- Lines that the layout leaves as they are, with `stack` open before them and behind the line
`previous`. They come apart again where they are put together with line feeds. -/
structure Settled (stack : List Char) (previous : Option (List Char)) (ls : List Line) : Prop where
  separate : ∀ l ∈ ls, '\n' ∉ chars l ∧ (chars l).getLast? ≠ some '\r'
  layout : ∀ n, layoutFrom n ⟨.code, stack⟩ previous false (ls.map chars) = .ok (ls.map chars)

/-- A blank line may follow. -/
def Quiet (previous : Option (List Char)) : Prop :=
  ∃ line, previous = some line ∧ opensBlock line = false

/-- A steady line stays as it is. -/
theorem Steady.layoutFrom_eq {stack stack' : List Char} {l : Line} (h : Steady stack l stack')
    (n : Nat) (previous : Option (List Char)) (rest : List (List Char)) :
    layoutFrom n ⟨.code, stack⟩ previous false (chars l :: rest) =
      (layoutFrom (n + 1) ⟨.code, stack'⟩ (some (chars l)) false rest).map (chars l :: ·) := by
  obtain ⟨c, cs, hc, -⟩ := h.starts
  rw [layoutFrom]
  simp only [h.trim_eq, h.indented_eq, scanLine, h.scan]
  rw [hc]
  simp only [List.isEmpty_cons, Bool.false_eq_true, if_false, bind, Except.bind]
  cases layoutFrom (n + 1) ⟨.code, stack'⟩ (some (chars l)) false rest with
  | error e => rfl
  | ok below => rfl

def blankLine : Line := ⟨0, ""⟩

theorem chars_blankLine : chars blankLine = [] := rfl

/-- The first of the lines closes nothing. -/
def Leads (ls : List Line) : Prop := ∃ l rest, ls = l :: rest ∧ Starts l.text.toList

theorem Leads.append {ls : List Line} (h : Leads ls) (more : List Line) : Leads (ls ++ more) := by
  obtain ⟨l, rest, rfl, hs⟩ := h
  exact ⟨l, rest ++ more, rfl, hs⟩

theorem starts_trim {l : Line} (h : Starts l.text.toList) : Starts (trim (chars l)) := by
  obtain ⟨c, cs, ht, hb, hc⟩ := h
  have hstart : trimStart (chars l) = c :: cs := by
    rw [chars, ht, trimStart_indented hb]
  refine ⟨c, trimEnd cs, ?_, hb, hc⟩
  rw [trim, hstart, trimEnd, trimEnd, List.reverse_cons, List.dropWhile_append]
  split
  · rename_i he
    rw [List.dropWhile_cons_of_neg (by simp [hb]), List.isEmpty_iff.1 he]
    rfl
  · rw [List.reverse_append]
    rfl

/-- A blank line is put before a line that closes nothing, behind one that opens nothing. -/
theorem layoutFrom_pending {raw : List Char} (hs : Starts (trim raw))
    {previous : Option (List Char)} (hq : Quiet previous) (n : Nat) (stack : List Char)
    (rest : List (List Char)) :
    layoutFrom n ⟨.code, stack⟩ previous true (raw :: rest) =
      (layoutFrom n ⟨.code, stack⟩ previous false (raw :: rest)).map ([] :: ·) := by
  obtain ⟨line, rfl, ho⟩ := hq
  have hc := leadingClosers_of_starts hs
  obtain ⟨c, cs, ht, -, -⟩ := hs
  rw [layoutFrom, layoutFrom]
  simp only [hc, Option.any_some, ho]
  rw [ht]
  simp only [List.isEmpty_cons, Bool.false_eq_true, if_false]
  cases scanLine n ⟨.code, stack⟩ (c :: cs) with
  | error e => rfl
  | ok s' =>
    simp only [bind, Except.bind]
    cases layoutFrom (n + 1) s' (some (indented ⟨.code, stack⟩ (c :: cs))) false rest with
    | error e => rfl
    | ok below => rfl

namespace Settled

variable {stack stack' : List Char} {previous : Option (List Char)} {l : Line} {rest : List Line}

theorem nil : Settled [] previous [] := ⟨by simp, fun _ => rfl⟩

theorem cons (h : Steady stack l stack') (hrest : Settled stack' (some (chars l)) rest) :
    Settled stack previous (l :: rest) := by
  refine ⟨List.forall_mem_cons.2 ⟨h.separate, hrest.separate⟩, fun n => ?_⟩
  rw [List.map_cons, h.layoutFrom_eq, hrest.layout]
  rfl

/-- A blank line between a line that opens nothing and one that closes nothing. -/
theorem blank {ls : List Line} (hq : Quiet previous) (hl : Leads ls)
    (h : Settled stack previous ls) : Settled stack previous (blankLine :: ls) := by
  have hb : '\n' ∉ chars blankLine ∧ (chars blankLine).getLast? ≠ some '\r' := by decide
  refine ⟨List.forall_mem_cons.2 ⟨hb, h.separate⟩, fun n => ?_⟩
  obtain ⟨l, rest, rfl, hs⟩ := hl
  have hp := layoutFrom_pending (starts_trim hs) hq (n + 1) stack (rest.map chars)
  rw [← List.map_cons, h.layout] at hp
  obtain ⟨line, rfl, ho⟩ := hq
  rw [List.map_cons, chars_blankLine, layoutFrom]
  exact hp

end Settled

/-! ## Kinds of lines -/

section Kinds

variable {stack : List Char} {text : String} {k : Nat}

theorem Starts.exists_visible {text : List Char} (h : Starts text) :
    ∃ c cs, text = c :: cs ∧ isBlank c = false := by
  obtain ⟨c, cs, ht, hb, -⟩ := h
  exact ⟨c, cs, ht, hb⟩

theorem Steady.code (hk : stack.length = k) (hn : Neutral text.toList) (hs : Starts text.toList)
    (he : Ends text.toList) : Steady stack ⟨k, text⟩ stack := by
  refine ⟨?_, hs.exists_visible, he, hn.oneLine, fun n => ?_⟩
  · rw [leadingClosers_of_starts hs, hk, Nat.add_zero]
  · have h := hn.scan n stack []
    rw [List.append_nil] at h
    rw [h, scanCode]

theorem not_isBlank_opener {c : Char} (h : isOpener c = true) : isBlank c = false := by
  have hc : c = '{' ∨ c = '(' ∨ c = '[' := by simpa [isOpener, or_assoc] using h
  obtain rfl | rfl | rfl := hc <;> decide

theorem Steady.opening {front : List Char} {c : Char} (hk : stack.length = k)
    (ht : text.toList = front ++ [c]) (hn : Neutral front) (hs : Starts front)
    (hc : isOpener c = true) : Steady stack ⟨k, text⟩ (c :: stack) := by
  have hstarts : Starts text.toList := ht ▸ hs.append [c]
  refine ⟨?_, hstarts.exists_visible, ⟨front, c, ht, not_isBlank_opener hc⟩, ?_, fun n => ?_⟩
  · rw [leadingClosers_of_starts hstarts, hk, Nat.add_zero]
  · rw [ht, List.mem_append, List.mem_singleton, not_or]
    exact ⟨hn.oneLine, (opener_ne_newline hc).symm⟩
  · rw [ht, hn.scan, scanCode_opener hc, scanCode]

theorem Steady.closing {c opener : Char} (hk : stack.length = k) (ht : text.toList = [c])
    (hc : openerOf? c = some opener) : Steady (opener :: stack) ⟨k, text⟩ stack := by
  have hcloser : isCloser c = true ∧ isBlank c = false := by
    unfold openerOf? at hc
    split at hc <;> cases hc <;> decide
  refine ⟨?_, ⟨c, [], ht, hcloser.2⟩, ⟨[], c, ht, hcloser.2⟩, ?_, fun n => ?_⟩
  · simp [ht, leadingClosers, hcloser.1, hk]
  · rw [ht, List.mem_singleton]
    exact (closer_ne_newline hc).symm
  · rw [ht, scanCode_closer hc, scanCode]

/-- A line that closes one brace and opens another. -/
theorem Steady.branch {mid : List Char} (hk : stack.length = k)
    (ht : text.toList = '}' :: ' ' :: mid ++ ['{']) (hn : Neutral mid) :
    Steady ('{' :: stack) ⟨k, text⟩ ('{' :: stack) := by
  have hblank : Neutral " ".toList := neutral_literal rfl
  have hspace : Neutral (' ' :: mid) := hblank.append hn
  refine ⟨?_, ⟨'}', _, ht, by decide⟩, ⟨_, '{', ht, by decide⟩, ?_, fun n => ?_⟩
  · have hl : leadingClosers text.toList = 1 := by rw [ht]; rfl
    rw [hl, List.length_cons, hk]
  · rw [ht]
    have ho := hspace.oneLine
    simp only [List.mem_cons, not_or] at ho
    simp [ho.2]
  · rw [ht, List.cons_append, scanCode_closer (c := '}') rfl, hspace.scan,
      scanCode_opener (by decide), scanCode]

end Kinds

/-! ## Blocks -/

/-- Lines that stay as they are before anything that may follow a blank line. -/
structure Block (ls : List Line) : Prop where
  leads : Leads ls
  settled : ∀ rest, (∀ previous, Quiet previous → Settled [] previous rest) →
    ∀ previous, Settled [] previous (ls ++ rest)

/-- Blocks with a blank line between neighbours. -/
def separated : List (List Line) → List Line
  | [] => []
  | [b] => b
  | b :: c :: rest => b ++ blankLine :: separated (c :: rest)

theorem leads_separated {b : List Line} (hb : Leads b) (rest : List (List Line)) :
    Leads (separated (b :: rest)) := by
  cases rest with
  | nil => exact hb
  | cons c rest => exact hb.append _

theorem settled_separated {blocks : List (List Line)} (h : ∀ b ∈ blocks, Block b)
    (previous : Option (List Char)) : Settled [] previous (separated blocks) := by
  induction blocks generalizing previous with
  | nil => exact .nil
  | cons b rest ih =>
    obtain ⟨hb, hrest⟩ := List.forall_mem_cons.1 h
    cases rest with
    | nil =>
      have hs := hb.settled [] (fun _ _ => .nil) previous
      rwa [List.append_nil] at hs
    | cons c rest =>
      refine hb.settled _ (fun previous hq => ?_) previous
      have hc := (hrest c List.mem_cons_self).leads
      exact .blank hq (leads_separated hc rest) (ih hrest previous)

/-- Lines that open and close nothing in the end. -/
theorem Settled.run {stack : List Char} {ls rest : List Line}
    (h : ∀ l ∈ ls, Steady stack l stack) (hrest : ∀ previous, Settled stack previous rest)
    (previous : Option (List Char)) : Settled stack previous (ls ++ rest) := by
  induction ls generalizing previous with
  | nil => exact hrest previous
  | cons l ls ih =>
    obtain ⟨hl, h⟩ := List.forall_mem_cons.1 h
    exact .cons hl (ih h _)

theorem Block.line {l : Line} (h : Steady [] l []) (hs : Starts l.text.toList)
    (hq : Quiet (some (chars l))) : Block [l] :=
  ⟨⟨l, [], rfl, hs⟩, fun _ hrest _ => .cons h (hrest _ hq)⟩

/-! ## Texts -/

theorem renderLines_separated (blocks : List (List Line)) :
    renderLines (separated blocks) = Text.join "\n" (blocks.map renderLines) := by
  induction blocks with
  | nil => rfl
  | cons b rest ih =>
    cases rest with
    | nil => rfl
    | cons c rest =>
      have hb : renderLines (blankLine :: separated (c :: rest)) =
          "\n" ++ renderLines (separated (c :: rest)) := by
        rw [← List.singleton_append, renderLines_append]
        rfl
      rw [separated, renderLines_append, hb, ih]
      simp only [List.map_cons, Text.join, String.append_assoc]

theorem renderLines_toList (ls : List Line) :
    (renderLines ls).toList = unlines (ls.map chars) := by
  simp [renderLines, unlines, String.toList_join, List.flatMap_map, Line.render, chars]

/-- The bytes of a text are read as that text. -/
theorem fromUTF8?_toUTF8 (text : String) : String.fromUTF8? text.toUTF8 = some text := by
  have hv : text.toUTF8.IsValidUTF8 := text.isValidUTF8
  rw [String.fromUTF8?, dif_pos hv]
  rfl

/-- The bytes of a text that is laid out already are too. -/
theorem canonicalBytes_of_canonical {text : String} (h : canonical text.toList = .ok text.toList) :
    canonicalBytes text.toUTF8 = .ok text.toUTF8 := by
  rw [canonicalBytes, fromUTF8?_toUTF8]
  simp only [h]
  simp [Functor.map, Except.map]

/-- A text of settled lines is laid out already. -/
theorem Settled.canonicalBytes {ls : List Line} (h : Settled [] none ls) :
    canonicalBytes (renderLines ls).toUTF8 = .ok (renderLines ls).toUTF8 := by
  have hlines : lines (unlines (ls.map chars)) = ls.map chars := by
    apply lines_unlines
    intro cs hcs
    obtain ⟨l, hl, rfl⟩ := List.mem_map.1 hcs
    exact h.separate l hl
  refine canonicalBytes_of_canonical ?_
  rw [canonical, renderLines_toList, hlines, Scanner.initial, h.layout]
  rfl

end Layout
end ResetMethods
