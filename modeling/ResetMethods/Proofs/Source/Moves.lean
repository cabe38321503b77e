import Mathlib.Data.List.Infix
import ResetMethods.Source.Parser

/-!
# ResetMethods.Proofs.Source.Moves

How parsers move along the tokens.

* `Kept`, `Further`, `Onward`: what may be left of some tokens. A parser reads from the front; the
  end of a declaration may forget the line break before the token that comes next.
* `Moves`: what a parser leaves of tokens, whenever it succeeds; `Yields`: what it gives.
* `Moves.bind`: parsers one behind the other. How they move together follows from how each of them
  moves, by the instances of `Trans`.
* One lemma for each way of building a parser, for all three relations where they allow it.
-/

namespace ResetMethods

/-- The tokens with the line break before the first of them forgotten. -/
def onLine : List Token → List Token
  | [] => []
  | t :: rest => { t with newline := false } :: rest

/-- An end of the tokens is left, all of them perhaps. -/
def Kept (ts left : List Token) : Prop := left <:+ ts

/-- The first token is read. -/
def Further (ts left : List Token) : Prop := left <:+ ts.tail

/-- An end of the tokens is left, perhaps without the line break before it. -/
def Onward (ts left : List Token) : Prop :=
  ∃ rest, rest <:+ ts ∧ (left = rest ∨ left = onLine rest)

variable {ts mid left : List Token}

theorem Further.kept (h : Further ts left) : Kept ts left := h.trans (List.tail_suffix ts)

theorem Kept.onward (h : Kept ts left) : Onward ts left := ⟨left, h, .inl rfl⟩

theorem Kept.tail (h : Kept ts left) : left.tail <:+ ts.tail := by
  obtain ⟨before, rfl⟩ := h
  cases before with
  | nil => exact List.suffix_rfl
  | cons t before => exact (List.tail_suffix left).trans (List.suffix_append before left)

@[simp] theorem tail_onLine (ts : List Token) : (onLine ts).tail = ts.tail := by
  cases ts <;> rfl

@[simp] theorem onLine_onLine (ts : List Token) : onLine (onLine ts) = onLine ts := by
  cases ts <;> rfl

theorem suffix_onLine (h : left <:+ onLine ts) : left = onLine ts ∨ left <:+ ts := by
  cases ts with
  | nil => exact .inr h
  | cons t rest =>
    rcases List.suffix_cons_iff.1 h with h | h
    · exact .inl h
    · exact .inr (h.trans (List.suffix_cons t rest))

instance : Trans Kept Kept Kept := ⟨fun h h' => h'.trans h⟩

instance : Trans Kept Further Further := ⟨fun h h' => h'.trans h.tail⟩

instance : Trans Further Kept Further := ⟨fun h h' => h'.trans h⟩

instance : Trans Further Further Further := ⟨fun h h' => h'.kept.trans h⟩

instance : Trans Onward Further Further where
  trans := by
    rintro ts mid left ⟨rest, hrest, rfl | rfl⟩ h
    · exact h.trans (Kept.tail hrest)
    · rw [Further, tail_onLine] at h
      exact h.trans (Kept.tail hrest)

instance : Trans Onward Onward Onward where
  trans := by
    rintro ts mid left ⟨rest, hrest, hmid⟩ ⟨rest', hrest', hleft⟩
    rcases hmid with rfl | rfl
    · exact ⟨rest', hrest'.trans hrest, hleft⟩
    · rcases suffix_onLine hrest' with rfl | hrest'
      · exact ⟨rest, hrest, .inr (by simpa using hleft)⟩
      · exact ⟨rest', hrest'.trans hrest, hleft⟩

instance : Trans Onward Kept Onward := ⟨fun h h' => Trans.trans h h'.onward⟩

instance : Trans Kept Onward Onward := ⟨fun h h' => Trans.trans h.onward h'⟩

instance : Trans Further Onward Onward := ⟨fun h h' => Trans.trans h.kept.onward h'⟩

instance : Std.Refl Kept := ⟨fun ts => List.suffix_refl ts⟩

instance : Std.Refl Onward := ⟨fun ts => Kept.onward (List.suffix_refl ts)⟩

namespace Parser

variable {α β : Type} {R S T : List Token → List Token → Prop} {p q : Parser α} {f : α → Parser β}
  {a : α} {b : β}

/-! ## Results -/

theorem bind_eq_some : (p >>= f) ts = some (b, left) ↔
    ∃ a mid, p ts = some (a, mid) ∧ f a mid = some (b, left) := by
  have h : (p >>= f) ts = (p ts).bind fun r => f r.1 r.2 := rfl
  rw [h, Option.bind_eq_some_iff]
  exact ⟨fun ⟨⟨a, mid⟩, h⟩ => ⟨a, mid, h⟩, fun ⟨a, mid, h⟩ => ⟨(a, mid), h⟩⟩

theorem pure_eq_some {b : α} : (pure a : Parser α) ts = some (b, left) ↔ a = b ∧ ts = left := by
  have h : (pure a : Parser α) ts = some (a, ts) := rfl
  simp [h]

theorem orElse_eq_some (h : (p <|> q) ts = some (a, left)) :
    p ts = some (a, left) ∨ q ts = some (a, left) := by
  have he : (p <|> q) ts = (p ts).orElse fun _ => q ts := rfl
  rw [he] at h
  cases hp : p ts with
  | none => rw [hp] at h; exact .inr h
  | some r => rw [hp] at h; exact .inl h

theorem map_ite {c : Prop} [Decidable c] (p q : Parser α) (h : α → β) :
    h <$> (if c then p else q) = if c then h <$> p else h <$> q := by
  split <;> rfl

theorem peek_bind {t : Token} {rest : List Token} (f : Token → Parser α) :
    (peek >>= f) (t :: rest) = f t (t :: rest) :=
  rfl

theorem map_apply (p : Parser α) (h : α → β) :
    (h <$> p) ts = (p ts).map fun r => (h r.1, r.2) := by
  have hmap : (h <$> p) ts = (p ts).bind fun r => some (h r.1, r.2) := rfl
  rw [hmap, Option.map_eq_bind]
  rfl

theorem perhaps_apply (p : Parser α) :
    perhaps p ts = some ((p ts).elim (none, ts) fun r => (some r.1, r.2)) := by
  have hor : perhaps p ts = ((some <$> p) ts).orElse fun _ => some (none, ts) := rfl
  rw [hor, map_apply]
  cases p ts <;> rfl

theorem perhaps_eq_some (h : perhaps p ts = some (some a, left)) : p ts = some (a, left) := by
  rw [perhaps_apply] at h
  cases hp : p ts with
  | none => simp [hp] at h
  | some r => simpa [hp, Prod.ext_iff] using h

theorem perhaps_map (p : Parser α) (h : α → β) :
    perhaps (h <$> p) = Option.map h <$> perhaps p := by
  funext ts
  rw [map_apply, perhaps_apply, perhaps_apply, map_apply]
  cases p ts <;> rfl

/-! ## Moves -/

/-- Whenever the parser succeeds, tokens and what is left of them are in the relation. -/
def Moves (R : List Token → List Token → Prop) (p : Parser α) : Prop :=
  ∀ ⦃ts a left⦄, p ts = some (a, left) → R ts left

theorem Moves.kept (h : Moves Further p) : Moves Kept p := fun _ _ _ hp => (h hp).kept

theorem Moves.onward (h : Moves Kept p) : Moves Onward p := fun _ _ _ hp => (h hp).onward

theorem Moves.bind [Trans R S T] (hp : Moves R p) (hf : ∀ a, Moves S (f a)) :
    Moves T (p >>= f) := by
  intro ts b left h
  obtain ⟨a, mid, ha, hb⟩ := bind_eq_some.1 h
  exact Trans.trans (hp ha) (hf a hb)

theorem Moves.pure [Std.Refl R] (a : α) : Moves R (pure a : Parser α) := by
  intro ts b left h
  obtain ⟨-, rfl⟩ := pure_eq_some.1 h
  exact Std.Refl.refl ts

theorem Moves.done (a : α) : Moves Kept (Pure.pure a : Parser α) := .pure a

theorem Moves.failure : Moves R (failure : Parser α) := fun _ _ _ h => nomatch h

theorem Moves.orElse (hp : Moves R p) (hq : Moves R q) : Moves R (p <|> q) :=
  fun _ _ _ h => (orElse_eq_some h).elim (fun h => hp h) (fun h => hq h)

theorem Moves.map (hp : Moves R p) (g : α → β) : Moves R (g <$> p) := by
  intro ts b left h
  have he : g <$> p = p >>= fun a => Pure.pure (g a) := by rw [map_eq_pure_bind]
  rw [he] at h
  obtain ⟨a, mid, ha, hb⟩ := bind_eq_some.1 h
  obtain ⟨-, rfl⟩ := pure_eq_some.1 hb
  exact hp ha

theorem Moves.of_map {g : α → β} (hp : Moves R (g <$> p)) : Moves R p := by
  intro ts a left ha
  refine hp (a := g a) ?_
  rw [map_apply, ha]
  rfl

theorem Moves.seqRight {q : Parser β} [Trans R S T] (hp : Moves R p) (hq : Moves S q) :
    Moves T (p *> q) := by
  intro ts b left h
  have he : p *> q = p >>= fun _ => q := by rw [seqRight_eq_bind]
  rw [he] at h
  exact Moves.bind hp (fun _ => hq) h

theorem Moves.seqLeft {q : Parser β} [Trans R S T] (hp : Moves R p) (hq : Moves S q) :
    Moves T (p <* q) := by
  intro ts b left h
  have he : p <* q = p >>= fun a => (fun _ => a) <$> q := by
    rw [seqLeft_eq_bind]
    simp only [map_eq_pure_bind]
  rw [he] at h
  exact Moves.bind hp (fun a => Moves.map hq _) h

theorem Moves.ite {c : Prop} [Decidable c] (hp : Moves R p) (hq : Moves R q) :
    Moves R (if c then p else q) := by
  split
  · exact hp
  · exact hq

/-! ## Single tokens -/

theorem moves_peek : Moves Kept peek := by
  intro ts t left h
  cases ts with
  | nil => cases h
  | cons u rest =>
    cases h
    exact List.suffix_refl _

theorem moves_get : Moves Kept (get : Parser (List Token)) := by
  intro ts a left h
  cases h
  exact List.suffix_refl _

theorem moves_satisfy (p : Token → Bool) : Moves Further (satisfy p) := by
  intro ts t left h
  cases ts with
  | nil => cases h
  | cons u rest =>
    rw [satisfy] at h
    split at h
    · cases h
      exact List.suffix_refl _
    · cases h

theorem moves_symbol (s : String) : Moves Further (symbol s) :=
  .bind (moves_satisfy _) fun _ => .done ()

theorem moves_symbolOf (ss : List String) : Moves Further (symbolOf ss) :=
  .bind (moves_satisfy _) fun _ => .done ()

theorem moves_word (w : String) : Moves Further (word w) :=
  .bind (moves_satisfy _) fun _ => .done ()

theorem moves_identToken (except : List String) : Moves Further (identToken except) := by
  intro ts a left h
  cases ts with
  | nil => cases h
  | cons t rest =>
    rw [identToken] at h
    split at h
    · split at h
      · cases h
      · cases h
        exact List.suffix_refl _
    · cases h

theorem moves_ident (except : List String) : Moves Further (ident except) :=
  .bind (moves_identToken except) fun _ => .done _

theorem moves_stringLiteral : Moves Further stringLiteral := by
  intro ts a left h
  cases ts with
  | nil => cases h
  | cons t rest =>
    rw [stringLiteral] at h
    split at h
    · cases h
      exact List.suffix_refl _
    · cases h

theorem moves_atSymbol (s : String) : Moves Kept (atSymbol s) := .bind moves_peek fun _ => .done _

theorem moves_lookingAt (p : Token → Bool) : Moves Kept (lookingAt p) :=
  .bind moves_peek fun _ => .ite (.done ()) .failure

/-- A line break is no token. To read one is to forget it. -/
theorem moves_terminator : Moves Onward terminator := by
  intro ts a left h
  cases ts with
  | nil => cases h
  | cons t rest =>
    rw [terminator] at h
    split at h
    · cases h
      exact ⟨t :: rest, List.suffix_refl _, .inr rfl⟩
    · split at h
      · cases h
        exact Kept.onward (List.suffix_cons _ _)
      · cases h

/-! ## Repetition -/

theorem Moves.perhaps [Std.Refl R] (hp : Moves R p) : Moves R (perhaps p) :=
  .orElse (hp.map some) (.pure none)

theorem Moves.manyWithin [Std.Refl R] [Trans R R R] (hp : Moves R p) (n : Nat) :
    Moves R (manyWithin p n) := by
  induction n with
  | zero => exact .pure []
  | succ n ih =>
    refine .bind (S := R) hp.perhaps fun a? => ?_
    cases a? with
    | none => exact .pure []
    | some a =>
      exact .bind (S := R) ih fun _ => .pure _

theorem Moves.many [Std.Refl R] [Trans R R R] (hp : Moves R p) : Moves R (many p) :=
  fun ts _ _ h => hp.manyWithin ts.length h

theorem Moves.separated {separator : Parser Unit} (hp : Moves Further p)
    (hs : Moves Further (separator *> p)) : Moves Further (separated separator p) :=
  .bind hp fun _ => .bind hs.kept.many fun _ => .done _

theorem Moves.commaSeparated (hp : Moves Further p) : Moves Further (commaSeparated p) :=
  hp.separated ((moves_symbol ",").seqRight hp)

theorem Moves.commaList (hp : Moves Further p) : Moves Further (commaList p) :=
  .bind hp.commaSeparated fun _ => .bind (moves_symbol ",").kept.perhaps fun _ => .done _

theorem Moves.inLine {lineEnds : Bool} (hp : Moves R p) [Trans Kept R R] :
    Moves R (inLine lineEnds p) :=
  .bind moves_peek fun _ => .ite .failure hp

theorem Moves.withText (hp : Moves Further p) : Moves Further (withText p) :=
  .bind moves_peek fun _ => .bind hp fun _ => .bind moves_peek fun _ => .done _

/-! ## What a parser gives -/

/-- Whenever the parser succeeds, its result has the property. -/
def Yields (P : α → Prop) (p : Parser α) : Prop := ∀ ⦃ts a left⦄, p ts = some (a, left) → P a

variable {P : β → Prop}

theorem Yields.bind {p : Parser α} {f : α → Parser β} (hf : ∀ a, Yields P (f a)) :
    Yields P (p >>= f) := by
  intro ts b left h
  obtain ⟨a, mid, -, hb⟩ := bind_eq_some.1 h
  exact hf a hb

theorem Yields.pure {b : β} (hb : P b) : Yields P (Pure.pure b : Parser β) := by
  intro ts a left h
  obtain ⟨rfl, -⟩ := pure_eq_some.1 h
  exact hb

theorem Yields.orElse {p q : Parser β} (hp : Yields P p) (hq : Yields P q) : Yields P (p <|> q) :=
  fun _ _ _ h => (orElse_eq_some h).elim (fun h => hp h) (fun h => hq h)

theorem Yields.ite {c : Prop} [Decidable c] {p q : Parser β} (hp : Yields P p) (hq : Yields P q) :
    Yields P (if c then p else q) := by
  split
  · exact hp
  · exact hq

end Parser
end ResetMethods
