import Mathlib.Data.List.Basic
import ResetMethods.Source.Token

/-!
# ResetMethods.Proofs.Source.Tokens

Where the tokens of a text stand.

* `Cursor.Stands`: what holds between two tokens, wherever reading stands: the rows are counted from
  the line feeds, the comments lie one behind the other, and the flags say what was read.
* `Succeed`: tokens one behind the other. Each stands where the token before it and what lies
  between them end.
* `tokenize_succeed`: the tokens of a text are such tokens.
* `Succeed.above_le`, `Succeed.lastRow_le`: what is before a token ends before it and on no later
  row.
-/

namespace ResetMethods

/-- The row on which a token ends. -/
def Token.lastRow (t : Token) : Nat := t.row + lineFeeds (lexeme t.rest).2 t.rest

/-- The number of characters before the end of a token. -/
def Token.stop (t : Token) : Nat := t.start + (lexeme t.rest).2

/-- Where reading stands at a token. -/
def Token.cursor (t : Token) : Cursor :=
  ⟨t.start, t.row, t.newline, t.comments, t.previousStop, t.previousRow⟩

/-- The text without a byte order mark at its start. -/
def withoutMark (text : List Char) : List Char :=
  if text.head? = some '\ufeff' then text.tail else text

/-- Comments one behind the other, between two rows. -/
def Spaced : Nat → List Comment → Nat → Prop
  | above, [], row => above ≤ row
  | above, c :: cs, row => above ≤ c.row ∧ c.row ≤ c.endRow ∧ Spaced c.endRow cs row

/-- Before a place of a text stands white space, a comment, a semicolon or nothing. -/
def Parted (text : List Char) (i : Nat) : Prop :=
  i = 0 ∨ ∃ c, (text.take i).getLast? = some c ∧ (isSpace c = true ∨ c = '/' ∨ c = ';')

/-- What was read before `cs` is what the cursor says. Behind a line comment a line break comes
next, if anything. -/
structure Cursor.Stands (text : List Char) (k : Cursor) (cs : List Char) : Prop where
  rest : text.drop k.start = cs
  row : k.row = lineFeeds k.start text
  stop_le : k.previousStop ≤ k.start
  comments : Spaced k.previousRow k.comments k.row
  inLine : k.newline = false → k.comments = [] → k.row = k.previousRow
  broken : k.newline = true → k.previousStop < k.start
  gap : k.start = k.previousStop ∨ Parted text k.start ∨ cs = [] ∨ cs.head? = some '\n'

/-- Tokens of a text one behind the other, up to its end. The first one stands behind the place and
on or below the row where what is before it ends. -/
inductive Succeed (text : List Char) : Nat → Nat → List Token → Prop
  | eof {t : Token} : t.cursor.Stands text t.rest → t.rest = [] → t.kind = .eof →
      Succeed text t.previousStop t.previousRow [t]
  | cons {t : Token} {ts : List Token} : t.cursor.Stands text t.rest →
      (∃ c, t.rest.head? = some c ∧ isSpace c = false) → t.kind = (lexeme t.rest).1 →
      Succeed text t.stop t.lastRow ts → Succeed text t.previousStop t.previousRow (t :: ts)

variable {text cs : List Char} {k : Cursor} {fuel n : Nat}

/-! ## Lengths -/

theorem lineFeeds_add (i n : Nat) (text : List Char) :
    lineFeeds (i + n) text = lineFeeds i text + lineFeeds n (text.drop i) := by
  simp [lineFeeds, List.take_add]

theorem drop_runLength (p : Char → Bool) (cs : List Char) :
    cs.drop (runLength p cs) = cs.dropWhile p := by
  have h := List.takeWhile_append_dropWhile (p := p) (l := cs)
  calc cs.drop (runLength p cs)
      = (cs.takeWhile p ++ cs.dropWhile p).drop (cs.takeWhile p).length := by rw [h, runLength]
    _ = cs.dropWhile p := List.drop_left

theorem blockCommentLength_eq_some {m : Nat} (h : blockCommentLength m cs = some n) :
    ∃ j, n = m + j + 1 ∧ (cs.take (j + 1)).getLast? = some '/' := by
  induction m, cs using blockCommentLength.induct with
  | case1 => cases h
  | case2 m cs =>
    rw [blockCommentLength] at h
    exact ⟨1, by simpa using h.symm, rfl⟩
  | case3 m c cs hc ih =>
    rw [blockCommentLength] at h
    · obtain ⟨j, rfl, hj⟩ := ih h
      refine ⟨j + 1, by omega, ?_⟩
      rw [List.take_succ_cons, List.getLast?_cons, hj]
      rfl
    · exact hc

/-- A comment ends with a slash, or its line ends behind it. -/
theorem commentLength_eq_some (h : commentLength cs = some n) :
    0 < n ∧ ((cs.take n).getLast? = some '/' ∨ cs.drop n = [] ∨
      (cs.drop n).head? = some '\n') := by
  unfold commentLength at h
  split at h
  · next rest =>
    obtain rfl := Option.some.inj h
    refine ⟨by omega, .inr ?_⟩
    have hdrop : ('/' :: '/' :: rest).drop (2 + runLength (· ≠ '\n') rest) =
        rest.dropWhile (· ≠ '\n') := by
      rw [Nat.add_comm, List.drop_succ_cons, List.drop_succ_cons, drop_runLength]
    rw [hdrop]
    cases hrest : rest.dropWhile (· ≠ '\n') with
    | nil => exact .inl rfl
    | cons c tail =>
      have hc := List.head?_dropWhile_not (· ≠ '\n') rest
      rw [hrest] at hc
      exact .inr (by simpa using hc)
  · next rest =>
    obtain ⟨j, rfl, hj⟩ := blockCommentLength_eq_some h
    refine ⟨by omega, .inl ?_⟩
    have htake : ('/' :: '*' :: rest).take (2 + j + 1) = '/' :: '*' :: rest.take (j + 1) := by
      rw [show 2 + j + 1 = j + 1 + 1 + 1 by omega]
      rfl
    rw [htake, List.getLast?_cons, List.getLast?_cons, hj]
    rfl
  · cases h

theorem stringLength_eq_some {m : Nat} (h : stringLength m fuel cs = some n) : m < n := by
  induction fuel generalizing m cs with
  | zero => cases h
  | succ fuel ih =>
    cases cs with
    | nil => cases h
    | cons c cs =>
      rw [stringLength] at h
      split at h
      · obtain rfl := Option.some.inj h
        omega
      · split at h
        · cases h
        · split at h
          · split at h
            · have := ih h
              omega
            · cases h
          · have := ih h
            omega

theorem rawStringLength_eq_some {m : Nat} (h : rawStringLength m cs = some n) : m < n := by
  induction cs generalizing m with
  | nil => cases h
  | cons c cs ih =>
    rw [rawStringLength] at h
    split at h
    · obtain rfl := Option.some.inj h
      omega
    · have := ih h
      omega

theorem pos_of_mem_symbols {s : String} (h : s ∈ symbols) : 0 < s.length := by
  revert s
  decide

/-- What a token tells of the text that it starts: its kind and its length. -/
inductive Lexes (cs : List Char) : TokenKind × Nat → Prop
  | word (n : Nat) : Lexes cs (.word (String.ofList (cs.take (n + 1))), n + 1)
  | literal (n : Nat) : Lexes cs (.literal, n + 1)
  | string (text : String) {n : Nat} : 0 < n → Lexes cs (.string text, n)
  | symbol {s : String} : s ∈ symbols → s.toList <+: cs → Lexes cs (.symbol s, s.length)
  | unknown : Lexes cs (.unknown, 1)

theorem lexes_lexeme (c : Char) (tail : List Char) : Lexes (c :: tail) (lexeme (c :: tail)) := by
  rw [lexeme]
  dsimp only
  split
  · exact .word _
  · split
    · exact .literal _
    · split
      · next n hn =>
        refine .string _ ?_
        split at hn
        · exact Nat.zero_lt_of_lt (stringLength_eq_some hn)
        · split at hn
          · exact Nat.zero_lt_of_lt (rawStringLength_eq_some hn)
          · cases hn
      · split
        · exact .literal _
        · split
          · next s hs =>
            have hbegins :=
              List.find?_some (p := fun s : String => s.toList.isPrefixOf (c :: tail)) hs
            exact .symbol (List.mem_of_find?_eq_some hs) (List.isPrefixOf_iff_prefix.1 hbegins)
          · exact .unknown

theorem lexeme_pos (c : Char) (tail : List Char) : 0 < (lexeme (c :: tail)).2 := by
  have h := lexes_lexeme c tail
  generalize lexeme (c :: tail) = r at h
  cases h with
  | word n => exact Nat.succ_pos n
  | literal n => exact Nat.succ_pos n
  | string _ h => exact h
  | symbol h _ => exact pos_of_mem_symbols h
  | unknown => exact Nat.one_pos

/-! ## Comments between tokens -/

theorem Spaced.below {above row row' : Nat} {comments : List Comment}
    (h : Spaced above comments row) (hrow : row ≤ row') : Spaced above comments row' := by
  induction comments generalizing above with
  | nil => exact Nat.le_trans h hrow
  | cons c comments ih => exact ⟨h.1, h.2.1, ih h.2.2⟩

theorem Spaced.snoc {above row : Nat} {comments : List Comment} (h : Spaced above comments row)
    (c : Comment) (hc : c.row = row) (hend : row ≤ c.endRow) :
    Spaced above (comments ++ [c]) c.endRow := by
  induction comments generalizing above with
  | nil => exact ⟨hc ▸ h, hc ▸ hend, Nat.le_refl _⟩
  | cons d comments ih => exact ⟨h.1, h.2.1, ih h.2.2⟩

theorem Spaced.le {above row : Nat} {comments : List Comment} (h : Spaced above comments row) :
    above ≤ row := by
  induction comments generalizing above with
  | nil => exact h
  | cons c comments ih => exact Nat.le_trans h.1 (Nat.le_trans h.2.1 (ih h.2.2))

theorem Spaced.le_row {above row : Nat} {comments : List Comment} (h : Spaced above comments row)
    {c : Comment} (hc : c ∈ comments) : above ≤ c.row := by
  induction comments generalizing above with
  | nil => cases hc
  | cons d comments ih =>
    rcases List.mem_cons.1 hc with rfl | hc
    · exact h.1
    · exact Nat.le_trans h.1 (Nat.le_trans h.2.1 (ih h.2.2 hc))

/-! ## Steps -/

namespace Cursor

theorem stands_initial (text : List Char) : (⟨0, 0, false, [], 0, 0⟩ : Cursor).Stands text text :=
  { rest := rfl
    row := by simp [lineFeeds]
    stop_le := Nat.le_refl 0
    comments := Nat.le_refl 0
    inLine := fun _ _ => rfl
    broken := fun h => nomatch h
    gap := .inl rfl }

theorem Stands.take_add (h : k.Stands text cs) (n : Nat) :
    text.take (k.start + n) = text.take k.start ++ cs.take n := by
  rw [List.take_add, h.rest]

theorem Stands.drop_add (h : k.Stands text cs) (n : Nat) :
    text.drop (k.start + n) = cs.drop n := by
  rw [← List.drop_drop, h.rest]

theorem Stands.lineFeeds_add (h : k.Stands text cs) (n : Nat) :
    lineFeeds (k.start + n) text = k.row + lineFeeds n cs := by
  rw [ResetMethods.lineFeeds_add, h.rest, h.row]

theorem Stands.space {c : Char} {tail : List Char} (h : k.Stands text (c :: tail))
    (hc : isSpace c = true) :
    ({ k with
        start := k.start + 1
        row := if c == '\n' then k.row + 1 else k.row
        newline := k.newline || c == '\n' } : Cursor).Stands text tail := by
  have hrow : (if c == '\n' then k.row + 1 else k.row) = lineFeeds (k.start + 1) text := by
    rw [h.lineFeeds_add]
    by_cases hn : c = '\n' <;> simp [lineFeeds, hn]
  refine
    { rest := h.drop_add 1
      row := hrow
      stop_le := Nat.le_succ_of_le h.stop_le
      comments := h.comments.below ?_
      inLine := fun hline hnone => ?_
      broken := fun _ => Nat.lt_succ_of_le h.stop_le
      gap := .inr (.inl (.inr ⟨c, ?_, .inl hc⟩)) }
  · dsimp only
    split <;> omega
  · obtain ⟨hline, hn⟩ : k.newline = false ∧ ¬ c = '\n' := by simpa using hline
    simpa [hn] using h.inLine hline hnone
  · rw [h.take_add]
    simp

theorem Stands.comment {n : Nat} (h : k.Stands text cs) (hn : commentLength cs = some n)
    (content : String) :
    ({ k with
        start := k.start + n
        row := k.row + lineFeeds n cs
        comments := k.comments ++ [⟨content, k.row, k.row + lineFeeds n cs⟩] } : Cursor).Stands text
      (cs.drop n) := by
  obtain ⟨hpos, hend⟩ := commentLength_eq_some hn
  refine
    { rest := h.drop_add n
      row := (h.lineFeeds_add n).symm
      stop_le := Nat.le_add_right_of_le h.stop_le
      comments := h.comments.snoc _ rfl (Nat.le_add_right _ _)
      inLine := fun _ hnone => absurd hnone (by simp)
      broken := fun _ => Nat.lt_of_le_of_lt h.stop_le (Nat.lt_add_of_pos_right hpos)
      gap := .inr ?_ }
  rcases hend with hend | hend
  · refine .inl (.inr ⟨'/', ?_, .inr (.inl rfl)⟩)
    rw [h.take_add, List.getLast?_append, hend]
    rfl
  · exact .inr hend

/-- Behind a token nothing is read yet. -/
theorem Stands.token (h : k.Stands text cs) (n : Nat) :
    (⟨k.start + n, k.row + lineFeeds n cs, false, [], k.start + n, k.row + lineFeeds n cs⟩ :
      Cursor).Stands text (cs.drop n) :=
  { rest := h.drop_add n
    row := (h.lineFeeds_add n).symm
    stop_le := Nat.le_refl _
    comments := Nat.le_refl _
    inLine := fun _ _ => rfl
    broken := fun h => nomatch h
    gap := .inl rfl }

end Cursor

/-! ## Runs -/

theorem tokensFrom_succeed (h : k.Stands text cs) (hfuel : cs.length ≤ fuel) :
    Succeed text k.previousStop k.previousRow (tokensFrom fuel k cs) := by
  induction fuel generalizing k cs with
  | zero =>
    obtain rfl := List.length_eq_zero_iff.1 (Nat.le_zero.1 hfuel)
    exact .eof (t := { k with kind := .eof, rest := [] }) h rfl rfl
  | succ fuel ih =>
    cases cs with
    | nil => exact .eof (t := { k with kind := .eof, rest := [] }) h rfl rfl
    | cons c tail =>
      have htail : tail.length ≤ fuel := Nat.le_of_succ_le_succ hfuel
      have hdrop {n : Nat} (hn : 0 < n) : ((c :: tail).drop n).length ≤ fuel := by
        rw [List.length_drop, List.length_cons]
        omega
      rw [tokensFrom]
      split
      · next hc => exact ih (h.space hc) htail
      · next hc =>
        split
        · next n hn => exact ih (h.comment hn _) (hdrop (commentLength_eq_some hn).1)
        · refine .cons (t := { k with kind := (lexeme (c :: tail)).1, rest := c :: tail }) h
            ⟨c, rfl, by simpa using hc⟩ rfl ?_
          exact ih (h.token (lexeme (c :: tail)).2) (hdrop (lexeme_pos c tail))

/-- The tokens of a text stand one behind the other. -/
theorem tokenize_succeed (text : List Char) : Succeed (withoutMark text) 0 0 (tokenize text) :=
  tokensFrom_succeed (Cursor.stands_initial _) (Nat.le_refl _)

namespace Succeed

variable {stop row : Nat} {ts before after : List Token} {t u : Token}

theorem stands (h : Succeed text stop row ts) (ht : t ∈ ts) : t.cursor.Stands text t.rest := by
  induction h with
  | eof hstands _ _ =>
    obtain rfl := List.mem_singleton.1 ht
    exact hstands
  | cons hstands _ _ _ ih =>
    rcases List.mem_cons.1 ht with rfl | ht
    · exact hstands
    · exact ih ht

/-- The kind of a token is read off the text, other than the end of the text. -/
theorem kind_eq (h : Succeed text stop row ts) (ht : t ∈ ts) (hkind : t.kind ≠ .eof) :
    (∃ c, t.rest.head? = some c ∧ isSpace c = false) ∧ t.kind = (lexeme t.rest).1 := by
  induction h with
  | eof _ _ heof =>
    obtain rfl := List.mem_singleton.1 ht
    exact absurd heof hkind
  | cons _ hc hlexeme _ ih =>
    rcases List.mem_cons.1 ht with rfl | ht
    · exact ⟨hc, hlexeme⟩
    · exact ih ht

theorem append (h : Succeed text stop row (before ++ t :: after)) :
    Succeed text t.previousStop t.previousRow (t :: after) := by
  induction before generalizing stop row with
  | nil => cases h with
    | eof hstands hrest hkind => exact .eof hstands hrest hkind
    | cons hstands hc hkind hrest => exact .cons hstands hc hkind hrest
  | cons u before ih =>
    generalize hts : u :: before ++ t :: after = ts at h
    cases h with
    | eof => simp at hts
    | cons _ _ _ hrest =>
      obtain ⟨rfl, rfl⟩ : u = _ ∧ before ++ t :: after = _ := by simpa using hts
      exact ih hrest

theorem head (h : Succeed text stop row (t :: ts)) :
    t.previousStop = stop ∧ t.previousRow = row := by
  cases h <;> exact ⟨rfl, rfl⟩

/-- A token ends where the next one says that the token before it ends. -/
theorem next (h : Succeed text stop row (t :: u :: after)) :
    u.previousStop = t.stop ∧ u.previousRow = t.lastRow := by
  cases h with
  | cons _ _ _ hrest => exact hrest.head

theorem above_le (h : Succeed text stop row ts) (ht : t ∈ ts) :
    stop ≤ t.previousStop ∧ row ≤ t.previousRow := by
  induction h with
  | eof _ _ _ =>
    obtain rfl := List.mem_singleton.1 ht
    exact ⟨Nat.le_refl _, Nat.le_refl _⟩
  | @cons u ts hstands _ _ _ ih =>
    rcases List.mem_cons.1 ht with rfl | ht
    · exact ⟨Nat.le_refl _, Nat.le_refl _⟩
    · obtain ⟨hstop, hrow⟩ := ih ht
      have hstart : u.previousStop ≤ u.start := hstands.stop_le
      have hstep : u.previousRow ≤ u.row := hstands.comments.le
      exact ⟨Nat.le_trans (Nat.le_add_right_of_le hstart) hstop,
        Nat.le_trans (Nat.le_add_right_of_le hstep) hrow⟩

/-- A token ends on no later row than the last token before a later one. -/
theorem lastRow_le (h : Succeed text stop row ts) (ht : t ∈ ts) (hu : u ∈ ts)
    (hlt : u.start < t.start) : u.lastRow ≤ t.previousRow := by
  induction h with
  | eof _ _ _ =>
    obtain rfl := List.mem_singleton.1 ht
    obtain rfl := List.mem_singleton.1 hu
    exact absurd hlt (Nat.lt_irrefl _)
  | @cons head ts hstands hc _ hrest ih =>
    rcases List.mem_cons.1 hu with rfl | hu' <;> rcases List.mem_cons.1 ht with rfl | ht'
    · exact absurd hlt (Nat.lt_irrefl _)
    · exact (hrest.above_le ht').2
    · have hstop : t.stop ≤ u.previousStop := (hrest.above_le hu').1
      have hstart : u.previousStop ≤ u.start := (hrest.stands hu').stop_le
      have hlength : t.start ≤ t.stop := Nat.le_add_right _ _
      omega
    · exact ih ht' hu'

theorem lexes (h : Succeed text stop row ts) (ht : t ∈ ts) (hkind : t.kind ≠ .eof) :
    Lexes t.rest (t.kind, (lexeme t.rest).2) := by
  obtain ⟨⟨c, hc, -⟩, hlexeme⟩ := h.kind_eq ht hkind
  obtain ⟨tail, htail⟩ : ∃ tail, t.rest = c :: tail := List.head?_eq_some_iff.1 hc
  have hlexes := lexes_lexeme c tail
  rw [← htail] at hlexes
  rwa [hlexeme]

theorem word {w : String} (h : Succeed text stop row ts) (ht : t ∈ ts) (hkind : t.kind = .word w) :
    w.toList <+: t.rest := by
  have hlexes := h.lexes ht (by simp [hkind])
  rw [hkind] at hlexes
  generalize (lexeme t.rest).2 = n at hlexes
  cases hlexes with
  | word n =>
    rw [String.toList_ofList]
    exact List.take_prefix _ _

theorem symbol {s : String} (h : Succeed text stop row ts) (ht : t ∈ ts)
    (hkind : t.kind = .symbol s) : s.toList <+: t.rest ∧ t.stop = t.start + s.length := by
  have hlexes := h.lexes ht (by simp [hkind])
  rw [hkind] at hlexes
  rw [Token.stop]
  generalize (lexeme t.rest).2 = n at hlexes ⊢
  cases hlexes with
  | symbol _ hbegins => exact ⟨hbegins, rfl⟩

/-- A semicolon ends on its own row. -/
theorem lastRow_semicolon (h : Succeed text stop row ts) (ht : t ∈ ts)
    (hkind : t.kind = .symbol ";") : t.lastRow = t.row := by
  obtain ⟨⟨tail, htail⟩, hstop⟩ := h.symbol ht hkind
  have hlength : (lexeme t.rest).2 = 1 := Nat.add_left_cancel hstop
  rw [Token.lastRow, hlength, ← htail]
  simp [lineFeeds]

/-- A token stands right behind the token before it, or something parts them. -/
theorem gap (h : Succeed text stop row ts) (ht : t ∈ ts) (hkind : t.kind ≠ .eof) :
    t.start = t.previousStop ∨ Parted text t.start := by
  obtain ⟨⟨c, hc, hspace⟩, -⟩ := h.kind_eq ht hkind
  rcases (h.stands ht).gap with hgap | hgap | hnil | hfeed
  · exact .inl hgap
  · exact .inr hgap
  · rw [hnil] at hc
    cases hc
  · rw [hc] at hfeed
    obtain rfl := Option.some.inj hfeed
    exact absurd hspace (by decide)

end Succeed
end ResetMethods
