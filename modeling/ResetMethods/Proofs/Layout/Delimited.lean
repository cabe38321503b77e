import ResetMethods.Proofs.Layout.Reading
import ResetMethods.Proofs.Layout.Settled

/-!
# ResetMethods.Proofs.Layout.Delimited

Which texts the layout accepts, and the offence that it finds in the others.

* `Stretch`: the grammar of well-delimited text, over a whole text and without lines. Everything
  that opens on the way from one place of the text to another closes on the way.
* `Reading`: a place that is reached with some delimiters open.
* `Offence`: what a text offends against, at the place where reading it cannot go on.
* `Stretch.verdict`, `Reading.verdict`: the verdict on a text is that on the rest, from any such
  place on.
* `wellDelimited_or_offence`: reading goes on to the end, or to an offence.
* `canonicalBytes_verdict`: the layout accepts the well-delimited texts, and tells the offence of
  any other.
-/

namespace ResetMethods
namespace Layout

/-! ## The grammar -/

/-- Where a quote has to be closed before the line ends, this cannot go on. -/
inductive Unquoted (quote : Char) : List Char → Prop where
  | unended {body : List Char} : Quotable quote body → Unquoted quote body
  /-- A backslash with nothing on the line to take along. -/
  | escape {body : List Char} : Quotable quote body → Unquoted quote (body ++ ['\\'])

theorem Unquoted.append {quote : Char} {front body : List Char} (h : Unquoted quote body)
    (hf : ∀ body, Quotable quote body → Quotable quote (front ++ body)) :
    Unquoted quote (front ++ body) := by
  cases h with
  | unended h => exact .unended (hf _ h)
  | escape h =>
    rw [← List.append_assoc]
    exact .escape (hf _ h)

/-- From the first text on, well-delimited text leads to the second, which is what is left of it. -/
inductive Stretch : List Char → List Char → Prop where
  | done (rest : List Char) : Stretch rest rest
  | ordinary {c : Char} {cs rest : List Char} :
      IsOrdinary c → (c = '/' → parts cs) → Stretch cs rest → Stretch (c :: cs) rest
  /-- The line break behind a comment is not part of it. -/
  | lineComment {body after rest : List Char} :
      '\n' ∉ body → EndsLine after → Stretch after rest →
      Stretch ('/' :: '/' :: body ++ after) rest
  | blockComment {body after rest : List Char} :
      ¬ ['*', '/'] <:+: body → Stretch after rest →
      Stretch ('/' :: '*' :: body ++ '*' :: '/' :: after) rest
  | rawString {body after rest : List Char} :
      rawQuote ∉ body → Stretch after rest →
      Stretch (rawQuote :: body ++ rawQuote :: after) rest
  | quoted {quote : Char} {body after rest : List Char} :
      quote = '"' ∨ quote = '\'' → Quotable quote body → Stretch after rest →
      Stretch (quote :: body ++ quote :: after) rest
  | pair {opener closer : Char} {cs after rest : List Char} :
      openerOf? closer = some opener → Stretch cs (closer :: after) → Stretch after rest →
      Stretch (opener :: cs) rest

/-- A text all of which is well delimited. -/
def WellDelimited (text : List Char) : Prop := Stretch text []

/-- What is left of a text where these delimiters are open, the innermost first. -/
inductive Reading (text : List Char) : List Char → List Char → Prop where
  | outside {rest : List Char} : Stretch text rest → Reading text [] rest
  | inside {stack cs rest : List Char} {opener : Char} :
      Reading text stack (opener :: cs) → isOpener opener = true → Stretch cs rest →
      Reading text (opener :: stack) rest

/-- What keeps a text from being well delimited, where reading it comes to that. -/
inductive Offence (text : List Char) : FormatError → Prop where
  /-- A closer that does not match the innermost open delimiter. Its line is one more than the line
  feeds before it. -/
  | unbalanced {before after stack : List Char} {closer opener : Char} :
      Reading text stack (closer :: after) → text = before ++ closer :: after →
      openerOf? closer = some opener → stack.head? ≠ some opener →
      Offence text (.unbalanced (before.count '\n' + 1) closer)
  /-- A quoted literal whose line ends. -/
  | quoted {quote : Char} {body after stack : List Char} :
      Reading text stack (quote :: body ++ after) → quote = '"' ∨ quote = '\'' →
      Unquoted quote body → EndsLine after → Offence text (.unclosed quote)
  | rawString {body stack : List Char} :
      Reading text stack (rawQuote :: body) → rawQuote ∉ body → Offence text (.unclosed rawQuote)
  | blockComment {body stack : List Char} :
      Reading text stack ('/' :: '*' :: body) → ¬ ['*', '/'] <:+: body →
      Offence text (.unclosed '*')
  | delimiter {opener : Char} {stack : List Char} :
      Reading text (opener :: stack) [] → Offence text (.unclosed opener)

/-! ## The verdict behind a stretch -/

section Follow

variable {n : Nat} {stack text rest body after : List Char} {quote c opener : Char}

theorem parts_prefix {p : List Char} (h : parts text) (hp : p <+: text) : parts p := by
  cases p with
  | nil => exact ⟨nofun, nofun⟩
  | cons d p =>
    obtain ⟨more, rfl⟩ := hp
    exact h

theorem count_newline_cons (c : Char) (cs : List Char) :
    (c :: cs).count '\n' = [c].count '\n' + cs.count '\n' := by
  rw [← List.singleton_append, List.count_append]

/-- A character that the scanner passes over, be it a line break or not. -/
theorem verdict_cons {s : Scanner}
    (h : c ≠ '\n' → ∀ p, p <+: text → scanLine n s (c :: p) = scanLine n s p) :
    verdict n s (c :: text) = verdict (n + [c].count '\n') s text := by
  by_cases hn : c = '\n'
  · rw [hn, verdict_newline, List.count_singleton_self]
  · rw [List.count_singleton, if_neg (by simpa using hn), Nat.add_zero]
    exact verdict_append [c] (by simpa using Ne.symm hn) (h hn)

theorem verdict_ordinary (hc : IsOrdinary c) (hs : c = '/' → parts text) :
    verdict n ⟨.code, stack⟩ (c :: text) = verdict (n + [c].count '\n') ⟨.code, stack⟩ text :=
  verdict_cons fun _ _ hp => hc.scanCode (fun h => parts_prefix (hs h) hp) n stack

theorem verdict_rawQuote :
    verdict n ⟨.code, stack⟩ (rawQuote :: text) = verdict n ⟨.rawString, stack⟩ text :=
  verdict_append [rawQuote] (by decide) fun p _ => scanCode_raw n stack p

theorem verdict_slash_star :
    verdict n ⟨.code, stack⟩ ('/' :: '*' :: text) = verdict n ⟨.blockComment, stack⟩ text :=
  verdict_append ['/', '*'] (by decide) fun p _ => by simp [scanLine, scanCode]

theorem verdict_rawString_cons (hc : c ≠ rawQuote) :
    verdict n ⟨.rawString, stack⟩ (c :: text) =
      verdict (n + [c].count '\n') ⟨.rawString, stack⟩ text := by
  refine verdict_cons fun _ p _ => ?_
  simp only [scanLine]
  rw [scanRaw, if_neg hc]

theorem verdict_blockComment_cons (hc : c = '*' → text.head? ≠ some '/') :
    verdict n ⟨.blockComment, stack⟩ (c :: text) =
      verdict (n + [c].count '\n') ⟨.blockComment, stack⟩ text := by
  refine verdict_cons fun _ p hp => scanComment_cons (fun h hhead => ?_) n stack
  obtain ⟨more, rfl⟩ := hp
  obtain ⟨p, rfl⟩ := List.head?_eq_some_iff.1 hhead
  exact hc h rfl

theorem verdict_rawString (h : rawQuote ∉ body) (n : Nat) (stack after : List Char) :
    verdict n ⟨.rawString, stack⟩ (body ++ rawQuote :: after) =
      verdict (n + body.count '\n') ⟨.code, stack⟩ after := by
  induction body generalizing n with
  | nil =>
    refine verdict_append [rawQuote] (by decide) fun p _ => ?_
    simp [scanLine, scanRaw]
  | cons c body ih =>
    rw [List.mem_cons, not_or] at h
    rw [List.cons_append, verdict_rawString_cons (Ne.symm h.1), ih h.2, count_newline_cons c body,
      Nat.add_assoc]

theorem verdict_rawString_open (h : rawQuote ∉ body) (n : Nat) (stack : List Char) :
    verdict n ⟨.rawString, stack⟩ body = .error (.unclosed rawQuote) := by
  induction body generalizing n with
  | nil => simp [verdict, Text.pieces, scanLines, scanLine, scanRaw, Scanner.close]
  | cons c body ih =>
    rw [List.mem_cons, not_or] at h
    rw [verdict_rawString_cons (Ne.symm h.1), ih h.2]

/-- A text without an end of a comment does not start with one, and neither does what is left of
it. -/
theorem not_infix_cons (h : ¬ ['*', '/'] <:+: c :: body) :
    (c = '*' → body.head? ≠ some '/') ∧ ¬ ['*', '/'] <:+: body := by
  constructor
  · rintro rfl hhead
    obtain ⟨more, rfl⟩ := List.head?_eq_some_iff.1 hhead
    exact h ⟨[], more, rfl⟩
  · exact fun hb => h (hb.trans (List.suffix_cons c body).isInfix)

theorem verdict_blockComment (h : ¬ ['*', '/'] <:+: body) (n : Nat) (stack after : List Char) :
    verdict n ⟨.blockComment, stack⟩ (body ++ '*' :: '/' :: after) =
      verdict (n + body.count '\n') ⟨.code, stack⟩ after := by
  induction body generalizing n with
  | nil =>
    refine verdict_append ['*', '/'] (by decide) fun p _ => ?_
    exact scanComment_close n stack p
  | cons c body ih =>
    obtain ⟨hc, hbody⟩ := not_infix_cons h
    have hhead : c = '*' → (body ++ '*' :: '/' :: after).head? ≠ some '/' := by
      intro hstar
      cases body with
      | nil => simp
      | cons d body => exact hc hstar
    rw [List.cons_append, verdict_blockComment_cons hhead, ih hbody, count_newline_cons c body,
      Nat.add_assoc]

theorem verdict_blockComment_open (h : ¬ ['*', '/'] <:+: body) (n : Nat) (stack : List Char) :
    verdict n ⟨.blockComment, stack⟩ body = .error (.unclosed '*') := by
  induction body generalizing n with
  | nil => simp [verdict, Text.pieces, scanLines, scanLine, scanComment, Scanner.close]
  | cons c body ih =>
    obtain ⟨hc, hbody⟩ := not_infix_cons h
    rw [verdict_blockComment_cons hc, ih hbody]

theorem verdict_opener (hc : isOpener c = true) :
    verdict n ⟨.code, stack⟩ (c :: text) = verdict n ⟨.code, c :: stack⟩ text :=
  verdict_append [c] (by simpa using (opener_ne_newline hc).symm)
    fun p _ => scanCode_opener hc n stack p

theorem verdict_closer (hc : openerOf? c = some opener) :
    verdict n ⟨.code, opener :: stack⟩ (c :: text) = verdict n ⟨.code, stack⟩ text :=
  verdict_append [c] (by simpa using (closer_ne_newline hc).symm)
    fun p _ => scanCode_closer hc n stack p

theorem quote_ne_newline (hq : quote = '"' ∨ quote = '\'') : quote ≠ '\n' := by
  obtain rfl | rfl := hq <;> decide

theorem verdict_quoted (hq : quote = '"' ∨ quote = '\'') (hb : Quotable quote body) :
    verdict n ⟨.code, stack⟩ (quote :: body ++ quote :: after) =
      verdict n ⟨.code, stack⟩ after := by
  have hneutral := hb.neutral hq
  rw [List.append_cons]
  exact verdict_append _ hneutral.oneLine fun p _ => hneutral.scan n stack p

theorem scanQuoted_unquoted (hb : Unquoted quote body) (n : Nat) (stack : List Char) :
    scanQuoted n stack quote body = .error (.unclosed quote) := by
  have hopen : ∀ {body tail : List Char}, Quotable quote body →
      scanQuoted n stack quote tail = .error (.unclosed quote) →
      scanQuoted n stack quote (body ++ tail) = .error (.unclosed quote) := by
    intro body tail hb ht
    induction hb with
    | nil => exact ht
    | char hc hback _ _ ih => rw [List.cons_append, scanQuoted_cons hback, if_neg hc, ih]
    | escape _ _ ih => rw [List.cons_append, List.cons_append, scanQuoted_escape, ih]
  cases hb with
  | unended hb =>
    rw [← List.append_nil body]
    exact hopen hb (by rw [scanQuoted])
  | escape hb => exact hopen hb (scanQuoted_end n stack quote)

theorem Unquoted.oneLine (h : Unquoted quote body) : '\n' ∉ body := by
  cases h with
  | unended h => exact h.oneLine
  | escape h => simpa using h.oneLine

theorem verdict_unquoted (hq : quote = '"' ∨ quote = '\'') (hb : Unquoted quote body)
    (ha : EndsLine after) :
    verdict n ⟨.code, stack⟩ (quote :: body ++ after) = .error (.unclosed quote) := by
  have hn : '\n' ∉ quote :: body := by
    simpa using ⟨(quote_ne_newline hq).symm, hb.oneLine⟩
  obtain ⟨ps, hp⟩ := ha.pieces
  rw [verdict, pieces_append_front hn hp, List.append_nil, scanLines]
  simp only [scanLine, scanCode_quote hq, scanQuoted_unquoted hb]

theorem verdict_lineComment (hb : '\n' ∉ body) (ha : EndsLine after) :
    verdict n ⟨.code, stack⟩ ('/' :: '/' :: body ++ after) = verdict n ⟨.code, stack⟩ after :=
  verdict_endsLine (by simpa using hb) ha (by simp [scanLine, scanCode])

/-- The verdict on a text is that on what is left behind a stretch, so many lines on. -/
theorem Stretch.verdict (h : Stretch text rest) : ∃ before, text = before ++ rest ∧
    ∀ n stack, verdict n ⟨.code, stack⟩ text =
      Layout.verdict (n + before.count '\n') ⟨.code, stack⟩ rest := by
  induction h with
  | done rest => exact ⟨[], rfl, fun n stack => rfl⟩
  | @ordinary c cs rest hc hs _ ih =>
    obtain ⟨before, rfl, ih⟩ := ih
    refine ⟨c :: before, rfl, fun n stack => ?_⟩
    rw [verdict_ordinary hc hs, ih, count_newline_cons c before, Nat.add_assoc]
  | @lineComment body after rest hb ha _ ih =>
    obtain ⟨before, rfl, ih⟩ := ih
    refine ⟨'/' :: '/' :: body ++ before, by simp, fun n stack => ?_⟩
    rw [verdict_lineComment hb ha, ih]
    simp [List.count_eq_zero.2 hb]
  | @blockComment body after rest hb _ ih =>
    obtain ⟨before, rfl, ih⟩ := ih
    refine ⟨'/' :: '*' :: body ++ '*' :: '/' :: before, by simp, fun n stack => ?_⟩
    rw [List.cons_append, List.cons_append, verdict_slash_star, verdict_blockComment hb, ih]
    simp [Nat.add_assoc]
  | @rawString body after rest hb _ ih =>
    obtain ⟨before, rfl, ih⟩ := ih
    refine ⟨rawQuote :: body ++ rawQuote :: before, by simp, fun n stack => ?_⟩
    rw [List.cons_append, verdict_rawQuote, verdict_rawString hb, ih]
    simp [Nat.add_assoc, rawQuote]
  | @quoted quote body after rest hq hb _ ih =>
    obtain ⟨before, rfl, ih⟩ := ih
    refine ⟨quote :: body ++ quote :: before, by simp, fun n stack => ?_⟩
    rw [verdict_quoted hq hb, ih]
    simp [List.count_eq_zero.2 hb.oneLine, quote_ne_newline hq]
  | @pair opener closer cs after rest hc _ _ ihin ihout =>
    obtain ⟨inner, rfl, ihin⟩ := ihin
    obtain ⟨before, rfl, ihout⟩ := ihout
    have ho := isOpener_of_openerOf? hc
    refine ⟨opener :: inner ++ closer :: before, by simp, fun n stack => ?_⟩
    rw [verdict_opener ho, ihin, verdict_closer hc, ihout]
    simp [opener_ne_newline ho, closer_ne_newline hc, Nat.add_assoc]

/-- The verdict on a text is that on what is left of it, at any place that is reached. -/
theorem Reading.verdict (h : Reading text stack rest) : ∃ before, text = before ++ rest ∧
    Layout.verdict 1 .initial text =
      Layout.verdict (before.count '\n' + 1) ⟨.code, stack⟩ rest := by
  induction h with
  | outside h =>
    obtain ⟨before, htext, hverdict⟩ := h.verdict
    exact ⟨before, htext, by rw [Nat.add_comm]; exact hverdict 1 []⟩
  | @inside stack cs rest opener _ ho hs ih =>
    obtain ⟨before, rfl, ih⟩ := ih
    obtain ⟨inner, rfl, hverdict⟩ := hs.verdict
    refine ⟨before ++ opener :: inner, by simp, ?_⟩
    rw [ih, verdict_opener ho, hverdict]
    simp [opener_ne_newline ho, Nat.add_right_comm]

theorem WellDelimited.verdict (h : WellDelimited text) :
    Layout.verdict 1 .initial text = .ok () := by
  obtain ⟨before, -, hverdict⟩ := Stretch.verdict h
  rw [Scanner.initial, hverdict 1 [], verdict_nil]
  rfl

theorem Offence.verdict {e : FormatError} (h : Offence text e) :
    Layout.verdict 1 .initial text = .error e := by
  cases h with
  | @unbalanced before after stack closer opener hr htext hc hs =>
    obtain ⟨before', htext', hverdict⟩ := hr.verdict
    have hbefore : before = before' := List.append_cancel_right (htext.symm.trans htext')
    rw [hverdict, ← hbefore]
    exact verdict_error [closer] (by simpa using (closer_ne_newline hc).symm)
      fun p _ => scanCode_closer_error hc hs _ p
  | quoted hr hq hb ha =>
    obtain ⟨before, -, hverdict⟩ := hr.verdict
    rw [hverdict, verdict_unquoted hq hb ha]
  | @rawString body stack hr hb =>
    obtain ⟨before, -, hverdict⟩ := hr.verdict
    rw [hverdict, verdict_rawQuote, verdict_rawString_open hb]
  | @blockComment body stack hr hb =>
    obtain ⟨before, -, hverdict⟩ := hr.verdict
    rw [hverdict, verdict_slash_star, verdict_blockComment_open hb]
  | @delimiter opener stack hr =>
    obtain ⟨before, -, hverdict⟩ := hr.verdict
    rw [hverdict, verdict_nil]
    rfl

end Follow

/-! ## Reading goes on -/

section Progress

variable {text mid rest stack cs after : List Char} {c closer opener : Char}

theorem Stretch.trans (h : Stretch text mid) (h' : Stretch mid rest) : Stretch text rest := by
  induction h with
  | done => exact h'
  | ordinary hc hs _ ih => exact .ordinary hc hs (ih h')
  | lineComment hb ha _ ih => exact .lineComment hb ha (ih h')
  | blockComment hb _ ih => exact .blockComment hb (ih h')
  | rawString hb _ ih => exact .rawString hb (ih h')
  | quoted hq hb _ ih => exact .quoted hq hb (ih h')
  | pair hc hin _ _ ih => exact .pair hc hin (ih h')

theorem Reading.stretch (h : Reading text stack mid) (h' : Stretch mid rest) :
    Reading text stack rest := by
  cases h with
  | outside h => exact .outside (h.trans h')
  | inside h ho hs => exact .inside h ho (hs.trans h')

theorem Reading.closed (h : Reading text (opener :: stack) (closer :: after))
    (hc : openerOf? closer = some opener) : Reading text stack after := by
  cases h with
  | inside h _ hs => exact h.stretch (.pair hc hs (.done after))

theorem line_end (cs : List Char) :
    ∃ body after, cs = body ++ after ∧ '\n' ∉ body ∧ EndsLine after := by
  induction cs with
  | nil => exact ⟨[], [], rfl, by simp, .inl rfl⟩
  | cons c cs ih =>
    by_cases hc : c = '\n'
    · exact ⟨[], c :: cs, rfl, by simp, .inr (by rw [hc]; rfl)⟩
    · obtain ⟨body, after, rfl, hb, ha⟩ := ih
      exact ⟨c :: body, after, rfl, by simpa using ⟨Ne.symm hc, hb⟩, ha⟩

theorem raw_end (cs : List Char) :
    rawQuote ∉ cs ∨ ∃ body after, cs = body ++ rawQuote :: after ∧ rawQuote ∉ body := by
  by_cases h : rawQuote ∈ cs
  · obtain ⟨body, after, hcs, hb⟩ := List.eq_append_cons_of_mem h
    exact .inr ⟨body, after, hcs, hb⟩
  · exact .inl h

theorem comment_end (cs : List Char) : (¬ ['*', '/'] <:+: cs) ∨
    ∃ body after, cs = body ++ '*' :: '/' :: after ∧ ¬ ['*', '/'] <:+: body := by
  induction cs with
  | nil => exact .inl (by simp)
  | cons c cs ih =>
    by_cases hend : ['*', '/'] <+: c :: cs
    · obtain ⟨after, hafter⟩ := hend
      exact .inr ⟨[], after, hafter.symm, by simp⟩
    obtain hnone | ⟨body, after, rfl, hbody⟩ := ih
    · exact .inl fun h => (List.infix_cons_iff.1 h).elim hend hnone
    · refine .inr ⟨c :: body, after, rfl, fun h => (List.infix_cons_iff.1 h).elim ?_ hbody⟩
      exact fun h => hend (h.trans (List.prefix_append (c :: body) _))

/-- A quote is closed on its line, or is not. -/
def QuotedEnd (quote : Char) (cs : List Char) : Prop :=
  (∃ body after, cs = body ++ quote :: after ∧ Quotable quote body) ∨
  ∃ body after, cs = body ++ after ∧ Unquoted quote body ∧ EndsLine after

/-- Some characters go before what follows them, whether the quote is closed there or not. -/
theorem QuotedEnd.append {quote : Char} {cs : List Char} (h : QuotedEnd quote cs)
    (front : List Char)
    (hf : ∀ body, Quotable quote body → Quotable quote (front ++ body)) :
    QuotedEnd quote (front ++ cs) := by
  obtain ⟨body, after, rfl, hb⟩ | ⟨body, after, rfl, hb, ha⟩ := h
  · exact .inl ⟨front ++ body, after, by simp, hf body hb⟩
  · exact .inr ⟨front ++ body, after, by simp, hb.append hf, ha⟩

/-- Behind a quote, the line has another or cannot go on. -/
theorem quotedEnd (quote : Char) (cs : List Char) : QuotedEnd quote cs := by
  induction hl : cs.length using Nat.strongRecOn generalizing cs with
  | ind k ih =>
    subst hl
    cases cs with
    | nil => exact .inr ⟨[], [], rfl, .unended .nil, .inl rfl⟩
    | cons c cs =>
      by_cases hn : c = '\n'
      · exact .inr ⟨[], c :: cs, rfl, .unended .nil, .inr (by rw [hn]; rfl)⟩
      by_cases hback : c = '\\'
      · subst hback
        cases cs with
        | nil => exact .inr ⟨['\\'], [], rfl, .escape .nil, .inl rfl⟩
        | cons d cs =>
          by_cases hd : d = '\n'
          · exact .inr ⟨['\\'], d :: cs, rfl, .escape .nil, .inr (by rw [hd]; rfl)⟩
          · have hend := ih cs.length (by simp only [List.length_cons]; omega) cs rfl
            exact hend.append ['\\', d] fun _ h => .escape hd h
      by_cases hquote : c = quote
      · exact .inl ⟨[], cs, by rw [hquote]; rfl, .nil⟩
      · have hend := ih cs.length (Nat.lt_succ_self _) cs rfl
        exact hend.append [c] fun _ h => .char hquote hback hn h

/-- Reading comes to the end of the text, or to an offence. -/
theorem Reading.ends_or_offends (h : Reading text stack rest) :
    (∃ stack, Reading text stack []) ∨ ∃ e, Offence text e := by
  induction hl : rest.length using Nat.strongRecOn generalizing stack rest with
  | ind k ih =>
    subst hl
    cases rest with
    | nil => exact .inl ⟨stack, h⟩
    | cons c cs =>
      have on : ∀ {after}, Stretch (c :: cs) after → after.length ≤ cs.length →
          (∃ stack, Reading text stack []) ∨ ∃ e, Offence text e :=
        fun hs hlen => ih _ (Nat.lt_succ_of_le hlen) (h.stretch hs) rfl
      cases front c cs with
      | lineComment cs =>
        obtain ⟨body, after, rfl, hb, ha⟩ := line_end cs
        exact on (.lineComment hb ha (.done after)) (by simp; omega)
      | blockComment cs =>
        obtain hb | ⟨body, after, rfl, hb⟩ := comment_end cs
        · exact .inr ⟨_, .blockComment h hb⟩
        · exact on (.blockComment hb (.done after)) (by simp; omega)
      | rawString =>
        obtain hb | ⟨body, after, rfl, hb⟩ := raw_end cs
        · exact .inr ⟨_, .rawString h hb⟩
        · exact on (.rawString hb (.done after)) (by simp; omega)
      | quoted _ hq =>
        obtain ⟨body, after, rfl, hb⟩ | ⟨body, after, rfl, hb, ha⟩ := quotedEnd c cs
        · exact on (.quoted hq hb (.done after)) (by simp; omega)
        · exact .inr ⟨_, .quoted h hq hb ha⟩
      | opener _ hc => exact ih cs.length (Nat.lt_succ_self _) (.inside h hc (.done cs)) rfl
      | @closer _ opener _ hc =>
        by_cases hs : stack.head? = some opener
        · obtain ⟨stack, rfl⟩ := List.head?_eq_some_iff.1 hs
          exact ih cs.length (Nat.lt_succ_self _) (h.closed hc) rfl
        · obtain ⟨before, htext, -⟩ := h.verdict
          exact .inr ⟨_, .unbalanced h htext hc hs⟩
      | ordinary hc hs => exact on (.ordinary hc hs (.done cs)) (Nat.le_refl _)

end Progress

/-- Every text is well delimited or offends. -/
theorem wellDelimited_or_offence (text : List Char) :
    WellDelimited text ∨ ∃ e, Offence text e := by
  obtain ⟨stack, h⟩ | h := Reading.ends_or_offends (.outside (.done text))
  · cases stack with
    | nil =>
      cases h with
      | outside h => exact .inl h
    | cons opener stack => exact .inr ⟨_, .delimiter h⟩
  · exact .inr h

theorem verdict_ok_iff (text : List Char) :
    verdict 1 .initial text = .ok () ↔ WellDelimited text := by
  refine ⟨fun hv => ?_, WellDelimited.verdict⟩
  obtain h | ⟨e, h⟩ := wellDelimited_or_offence text
  · exact h
  · rw [h.verdict] at hv
    cases hv

theorem verdict_error_iff (text : List Char) (e : FormatError) :
    verdict 1 .initial text = .error e ↔ Offence text e := by
  refine ⟨fun hv => ?_, Offence.verdict⟩
  obtain h | ⟨e', h⟩ := wellDelimited_or_offence text
  · rw [h.verdict] at hv
    cases hv
  · rw [h.verdict] at hv
    cases hv
    exact h

theorem canonicalBytes_map_unit (text : String) :
    (canonicalBytes text.toUTF8).map (fun _ => ()) = verdict 1 .initial text.toList := by
  rw [← canonical_verdict, canonicalBytes, fromUTF8?_toUTF8]
  dsimp only
  cases canonical text.toList with
  | error e => rfl
  | ok out => rfl

/-- The layout accepts exactly the well-delimited texts, and it fails on any other text with the
offence of that text. -/
theorem canonicalBytes_verdict (text : String) :
    ((∃ out, canonicalBytes text.toUTF8 = .ok out) ↔ WellDelimited text.toList) ∧
    ∀ e, canonicalBytes text.toUTF8 = .error e ↔ Offence text.toList e := by
  simp only [← verdict_ok_iff, ← verdict_error_iff, ← canonicalBytes_map_unit]
  cases canonicalBytes text.toUTF8 with
  | error e => simp [Except.map]
  | ok out => simp [Except.map]

end Layout
end ResetMethods
