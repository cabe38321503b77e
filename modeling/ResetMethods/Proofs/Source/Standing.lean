import ResetMethods.Proofs.Source.Grammar
import ResetMethods.Proofs.Source.Positioned
import ResetMethods.Proofs.Source.Tokens

/-!
# ResetMethods.Proofs.Source.Standing

What holds where the items of a file and the types of a group stand.

* `Positioned.Standing`: an element starts with a token of the text, and what its position says of
  the element before is so.
* `endPosition_fits`: what holds behind the end of an element.
* `PositionedItem.Standing`, `locate?_standing`: what holds of the items of a text and of all that
  is documented in them.
* `SourceFile.exists_items`: a source file has such items.

An element is read from its first token on, so an end of the tokens is left behind it. The lemmas
carry this from one element of a list to the next one.
-/

namespace ResetMethods

open ResetMethods.Parser

variable {α β : Type} {g : Grammar} {ts left : List Token}

/-! ## Positions -/

/-- What a position tells of the first token behind it. -/
def Position.Fits : Position → Token → Prop
  | .behind row false, t => t.previousRow = row
  | _, _ => True

/-- The element starts with one of the tokens, its line break perhaps forgotten, and what is said to
stand before it stands there. -/
structure Positioned.Standing (all : List Token) (e : Positioned α) : Prop where
  token : ∃ u ∈ all, e.token = u ∨ e.token = { u with newline := false }
  fits : e.position.Fits e.token

variable {text : List Char} {all mid : List Token} {position next : Position} {t : Token}
  {fuel : Nat}

theorem Onward.head (h : Onward all (t :: left)) :
    ∃ u ∈ all, t = u ∨ t = { u with newline := false } := by
  obtain ⟨rest, hrest, hleft⟩ := h
  cases rest with
  | nil => simp [onLine] at hleft
  | cons u rest =>
    refine ⟨u, hrest.subset List.mem_cons_self, ?_⟩
    exact hleft.imp (fun h => (List.cons.inj h).1) (fun h => (List.cons.inj h).1)

theorem endPosition_eq_some {s : Token} {rest : List Token}
    (h : TypeGrammar.endPosition (s :: rest) = some (next, left)) :
    s.newline = true ∧ next = .behind s.previousRow false ∧
        left = { s with newline := false } :: rest ∨
      s.newline = false ∧ s.kind = .symbol ";" ∧
        next = .behind s.previousRow (!s.comments.isEmpty) ∧ left = rest := by
  have hend : TypeGrammar.endPosition (s :: rest) = (terminator (s :: rest)).bind fun r =>
      let apart := !s.newline && s.kind == .symbol ";" && !s.comments.isEmpty
      some (.behind s.previousRow apart, r.2) := rfl
  rw [hend, terminator] at h
  split at h
  · next hn =>
    obtain ⟨rfl, rfl⟩ : _ = next ∧ _ = left := by simpa using h
    exact .inl ⟨hn, by rw [hn]; rfl, rfl⟩
  · next hn =>
    split at h
    · next hs =>
      obtain ⟨rfl, rfl⟩ : _ = next ∧ _ = left := by simpa using h
      exact .inr ⟨by simpa using hn, by simpa using hs, by simp [hn, hs], rfl⟩
    · cases h

/-- Behind a semicolon comes what it parts from the element before. -/
theorem semicolon_parts {s : Token} {stop row : Nat} (hall : Succeed text stop row (s :: t :: left))
    (hs : s.kind = .symbol ";") (ht : t.kind ≠ .eof) : Parted text t.start := by
  rcases hall.gap (by simp) ht with hgap | hgap
  · obtain ⟨⟨tail, htail⟩, hstop⟩ := hall.symbol (List.mem_cons_self) hs
    have hstart : t.start = s.start + 1 := by rw [hgap, hall.next.1, hstop]; rfl
    refine .inr ⟨';', ?_, .inr (.inr rfl)⟩
    have hstands : s.cursor.Stands text s.rest := hall.stands List.mem_cons_self
    have htake : text.take (s.start + 1) = text.take s.start ++ s.rest.take 1 := hstands.take_add 1
    rw [hstart, htake, ← htail]
    simp
  · exact hgap

/-- Between an element and the next one stands the end of the element. Where no comments stand
before its semicolon, the semicolon stands on the row where the element ends. -/
theorem endPosition_fits (hall : Succeed text 0 0 all) (hmid : Kept all mid)
    (h : TypeGrammar.endPosition mid = some (next, left)) :
    Onward all left ∧
      ∀ t ∈ left.head?, next.Fits t ∧ (t.kind ≠ .eof → Parted text t.start) := by
  obtain ⟨before, rfl⟩ := hmid
  cases mid with
  | nil => cases h
  | cons s rest =>
    have hs := hall.append
    -- Either a line break ends the element, which the next token forgets, or a semicolon does.
    rcases endPosition_eq_some h with ⟨hn, rfl, rfl⟩ | ⟨hn, hkind, rfl, rfl⟩
    · refine ⟨⟨s :: rest, List.suffix_append _ _, .inr rfl⟩, fun t ht => ?_⟩
      obtain rfl : { s with newline := false } = t := by simpa using ht
      refine ⟨rfl, fun heof => ?_⟩
      have hbroken : s.previousStop < s.start := (hs.stands List.mem_cons_self).broken hn
      exact (hs.gap List.mem_cons_self heof).resolve_left (Nat.ne_of_gt hbroken)
    · refine ⟨⟨left, ?_, .inl rfl⟩, fun t ht => ?_⟩
      · exact (List.suffix_cons s left).trans (List.suffix_append _ _)
      · obtain ⟨after, rfl⟩ : ∃ after, left = t :: after := List.head?_eq_some_iff.1 ht
        refine ⟨?_, semicolon_parts hs hkind⟩
        cases hcomments : s.comments with
        | cons c cs => trivial
        | nil =>
          have hrow : s.row = s.previousRow :=
            (hs.stands List.mem_cons_self).inLine hn hcomments
          have hlast : s.lastRow = s.row := hs.lastRow_semicolon List.mem_cons_self hkind
          exact hs.next.2.trans (hlast.trans hrow)

/-! ## Elements -/

/-- What documents an element is found from its position. -/
def Positioned.Documented (e : Positioned (Option CommentGroup)) : Prop :=
  e.element = docAbove e.position.trailing e.token

namespace TypeGrammar

theorem typeSpec_doc {trailing : Option Nat} {rest : List Token} {spec : TypeSpec}
    (h : typeSpec g trailing (t :: rest) = some (spec, left)) : spec.doc = docAbove trailing t := by
  obtain ⟨⟨name, u⟩, mid, hname, hspec⟩ := bind_eq_some.1 h
  obtain rfl : t = u := by
    rw [identToken] at hname
    split at hname
    · split at hname
      · cases hname
      · cases hname
        rfl
    · cases hname
  have hyields : Yields (fun spec : TypeSpec => spec.doc = docAbove trailing t) (
      (do
        symbol "="
        let type ← g.type true
        return ⟨docAbove trailing t, name, [], true, type, t.row + 1⟩) <|>
      (do
        let type ← g.type true
        return ⟨docAbove trailing t, name, [], false, type, t.row + 1⟩) <|>
      (do
        let params ← typeParams g
        let type ← g.type true
        return ⟨docAbove trailing t, name, params, false, type, t.row + 1⟩)) := by
    refine .orElse (.bind fun _ => .bind fun _ => .pure rfl) (.orElse (.bind fun _ => .pure rfl) ?_)
    exact .bind fun _ => .bind fun _ => .pure rfl
  exact hyields hspec

theorem positionedSpecs_standing (hall : Succeed text 0 0 all) (hg : g.Advances)
    (hts : Onward all ts) (hfits : ∀ t ∈ ts.head?, position.Fits t)
    {specs : List (Positioned TypeSpec)}
    (h : positionedSpecs g fuel position ts = some (specs, left)) :
    ∀ e ∈ specs, e.Standing all ∧ e.element.doc = docAbove e.position.trailing e.token := by
  induction fuel generalizing position ts specs left with
  | zero =>
    obtain ⟨rfl, -⟩ := pure_eq_some.1 h
    simp
  | succ fuel ih =>
    cases ts with
    | nil => cases h
    | cons t rest =>
      rw [positionedSpecs, peek_bind] at h
      split at h
      · obtain ⟨rfl, -⟩ := pure_eq_some.1 h
        simp
      · obtain ⟨spec, mid, hspec, h⟩ := bind_eq_some.1 h
        obtain ⟨next, mid', hnext, h⟩ := bind_eq_some.1 h
        obtain ⟨more, mid'', hmore, h⟩ := bind_eq_some.1 h
        obtain ⟨rfl, -⟩ := pure_eq_some.1 h
        have hmid : Further all mid := Trans.trans hts (moves_typeSpec hg _ hspec)
        obtain ⟨hmid', hfits'⟩ := endPosition_fits hall hmid.kept hnext
        intro e he
        rcases List.mem_cons.1 he with rfl | he
        · exact ⟨⟨hts.head, hfits t rfl⟩, typeSpec_doc hspec⟩
        · exact ih hmid' (fun t ht => (hfits' t ht).1) hmore e he

theorem positionedDecl_standing (hall : Succeed text 0 0 all) (hg : g.Advances) {rest : List Token}
    (hts : Onward all (t :: rest)) {decl : TypeDecl} {specs : List (Positioned TypeSpec)}
    (h : positionedDecl g position (t :: rest) = some ((decl, specs), left)) :
    decl.doc = docAbove position.trailing t ∧
      (specs.map fun e => e.element.doc) = (if decl.grouped then decl.specs.map (·.doc) else []) ∧
      ∀ e ∈ specs, e.Standing all ∧ e.element.doc = docAbove e.position.trailing e.token := by
  rw [positionedDecl, peek_bind] at h
  obtain ⟨_, mid, hword, h⟩ := bind_eq_some.1 h
  obtain ⟨isGroup, mid', hgroup, h⟩ := bind_eq_some.1 h
  have hmid : Further all mid' :=
    Trans.trans (Trans.trans hts (moves_word _ hword) : Further all mid) (moves_atSymbol _ hgroup)
  split at h
  · obtain ⟨_, mid₁, hopen, h⟩ := bind_eq_some.1 h
    obtain ⟨_, mid₂, hget, h⟩ := bind_eq_some.1 h
    obtain ⟨specs, mid₃, hspecs, h⟩ := bind_eq_some.1 h
    obtain ⟨_, mid₄, -, h⟩ := bind_eq_some.1 h
    obtain ⟨heq, -⟩ := pure_eq_some.1 h
    obtain ⟨rfl, rfl⟩ := Prod.mk.inj heq
    have hmid₁ : Further all mid₁ := Trans.trans hmid (moves_symbol _ hopen)
    have hmid₂ : Further all mid₂ := Trans.trans hmid₁ (moves_get hget)
    have hfirst : ∀ t ∈ mid₂.head?, Position.first.Fits t := fun _ _ => trivial
    exact ⟨rfl, by simp, positionedSpecs_standing hall hg hmid₂.kept.onward hfirst hspecs⟩
  · obtain ⟨spec, _, -, h⟩ := bind_eq_some.1 h
    obtain ⟨heq, -⟩ := pure_eq_some.1 h
    obtain ⟨rfl, rfl⟩ := Prod.mk.inj heq
    exact ⟨rfl, rfl, by simp⟩

end TypeGrammar

/-- What holds of an item and of all that is documented in it. -/
structure PositionedItem.Standing (all : List Token) (text : List Char) (i : PositionedItem) :
    Prop where
  documented : ∀ e ∈ i.documented, e.Standing all ∧ e.Documented
  docs : ∀ decl, i.element = .declaration decl → i.documented.map (·.element) = decl.docs
  clause : ∀ name, i.element = .package name →
    "package".toList <+: text.drop i.token.start ∧ Parted text i.token.start ∧
      i.token.row = lineFeeds i.token.start text

theorem PositionedItem.documented_eq_nil {i : PositionedItem}
    (h : ∀ decl, i.element ≠ .declaration (.types decl)) : i.documented = [] := by
  rw [PositionedItem.documented]
  split
  · next decl hdecl => exact absurd hdecl (h decl)
  · rfl

/-- A package clause and a type declaration are known by their first words. -/
def FileItem.StartsWith : FileItem → TokenKind → Prop
  | .package _, kind => kind = .word "package"
  | .declaration (.types _), kind => kind = .word "type"
  | _, _ => True

namespace FileGrammar

open TypeGrammar

theorem item_startsWith {trailing : Option Nat} {rest : List Token} {i : FileItem}
    (h : item g trailing (t :: rest) = some (i, left)) : i.StartsWith t.kind := by
  rw [item, peek_bind] at h
  refine (show Yields (fun i => i.StartsWith t.kind) _ from ?_) h
  have himports : Yields (fun i => i.StartsWith t.kind) importDecl := by
    refine .bind fun _ => .bind fun _ => .ite ?_ ?_
    · exact .bind fun _ => .bind fun _ => .bind fun _ => .bind fun _ => .pure trivial
    · exact .bind fun _ => .pure trivial
  have hfunction : Yields (fun i => i.StartsWith t.kind) (functionDecl g) := by
    refine .bind fun _ => .bind fun _ => .ite ?_ ?_
    · exact .bind fun _ => .bind fun _ => .bind fun _ => .pure trivial
    · exact .bind fun _ => .bind fun _ => .bind fun _ => .pure trivial
  have hstatement : Yields (fun i => i.StartsWith t.kind) (statement g) :=
    .bind fun _ => .pure trivial
  split
  · next hkind => exact .bind fun _ => .bind fun _ => .pure hkind
  · exact himports
  · exact .orElse hfunction hstatement
  · next hkind => exact .bind fun _ => .pure hkind
  · exact .bind fun _ => .pure trivial
  · exact .bind fun _ => .pure trivial
  · exact hstatement

theorem positionedItem_other {rest : List Token} (ht : t.kind ≠ .word "type") :
    positionedItem g position (t :: rest) =
      (item g position.trailing >>= fun i => pure ⟨⟨position, t, i⟩, []⟩) (t :: rest) := by
  rw [positionedItem, peek_bind]
  refine congrFun ?_ (t :: rest)
  split
  · next h => exact absurd h ht
  · rfl

theorem moves_positionedItem (hg : g.Advances) (position : Position) :
    Moves Further (positionedItem g position) := by
  refine .of_map (g := fun i : PositionedItem => i.element) ?_
  rw [← item_eq]
  exact moves_item hg _

/-- The word of a package clause stands in the text as it is written, set apart and on its row. -/
theorem clause_standing (hall : Succeed text 0 0 all) {rest : List Token}
    (hts : Onward all (t :: rest)) (hparted : t.kind ≠ .eof → Parted text t.start)
    (hkind : t.kind = .word "package") :
    "package".toList <+: text.drop t.start ∧ Parted text t.start ∧
      t.row = lineFeeds t.start text := by
  obtain ⟨u, hu, htoken⟩ := hts.head
  have hsame : t.start = u.start ∧ t.row = u.row ∧ t.kind = u.kind := by
    rcases htoken with rfl | rfl <;> exact ⟨rfl, rfl, rfl⟩
  obtain ⟨hstart, hrow, hword⟩ := hsame
  have hstands : u.cursor.Stands text u.rest := hall.stands hu
  refine ⟨?_, hparted (by simp [hkind]), ?_⟩
  · rw [hstart, show text.drop u.start = u.rest from hstands.rest]
    exact hall.word hu (hword.symm.trans hkind)
  · rw [hrow, hstart]
    exact hstands.row

theorem positionedItem_standing (hall : Succeed text 0 0 all) (hg : g.Advances) {rest : List Token}
    (hts : Onward all (t :: rest)) (hfits : position.Fits t)
    (hparted : t.kind ≠ .eof → Parted text t.start) {i : PositionedItem}
    (h : positionedItem g position (t :: rest) = some (i, left)) : i.Standing all text := by
  by_cases hkind : t.kind = .word "type"
  · rw [positionedItem, peek_bind, hkind] at h
    obtain ⟨⟨decl, specs⟩, mid, hdecl, h⟩ := bind_eq_some.1 h
    obtain ⟨rfl, -⟩ := pure_eq_some.1 h
    obtain ⟨hdoc, hdocs, hspecs⟩ := positionedDecl_standing hall hg hts hdecl
    refine ⟨fun e he => ?_, fun decl' hdecl' => ?_, fun name hname => ?_⟩
    · rcases List.mem_cons.1 he with rfl | he
      · exact ⟨⟨hts.head, hfits⟩, hdoc⟩
      · obtain ⟨spec, hspec, rfl⟩ := List.mem_map.1 he
        obtain ⟨hstanding, hspecdoc⟩ := hspecs spec hspec
        exact ⟨⟨hstanding.token, hstanding.fits⟩, hspecdoc⟩
    · obtain rfl : Decl.types decl = decl' := by simpa using hdecl'
      simp [PositionedItem.documented, Decl.docs, ← hdocs]
    · cases hname
  · rw [positionedItem_other hkind] at h
    obtain ⟨found, mid, hfound, h⟩ := bind_eq_some.1 h
    obtain ⟨rfl, -⟩ := pure_eq_some.1 h
    have hstarts := item_startsWith hfound
    have hother (decl : TypeDecl) : found ≠ .declaration (.types decl) := by
      rintro rfl
      exact hkind hstarts
    refine ⟨fun e he => ?_, fun decl hdecl => ?_, fun name hname => ?_⟩
    · rw [PositionedItem.documented_eq_nil hother] at he
      cases he
    · obtain rfl : found = .declaration decl := hdecl
      rw [PositionedItem.documented_eq_nil hother, List.map_nil]
      cases decl with
      | types decl => exact absurd rfl (hother decl)
      | _ => rfl
    · obtain rfl : found = .package name := hname
      exact clause_standing hall hts hparted hstarts

theorem positionedItems_standing (hall : Succeed text 0 0 all) (hg : g.Advances)
    (hts : Onward all ts)
    (hfits : ∀ t ∈ ts.head?, position.Fits t ∧ (t.kind ≠ .eof → Parted text t.start))
    {items : List PositionedItem} (h : positionedItems g fuel position ts = some (items, left)) :
    ∀ i ∈ items, i.Standing all text := by
  induction fuel generalizing position ts items left with
  | zero => cases h
  | succ fuel ih =>
    cases ts with
    | nil => cases h
    | cons t rest =>
      obtain ⟨ends, mid, hends, h⟩ := bind_eq_some.1 h
      obtain rfl : t :: rest = mid := by cases hends; rfl
      split at h
      · obtain ⟨rfl, -⟩ := pure_eq_some.1 h
        simp
      · obtain ⟨first, mid, hfirst, h⟩ := bind_eq_some.1 h
        obtain ⟨next?, mid', hnext, h⟩ := bind_eq_some.1 h
        have hstanding : first.Standing all text :=
          positionedItem_standing hall hg hts (hfits t rfl).1 (hfits t rfl).2 hfirst
        have hmid : Further all mid := Trans.trans hts (moves_positionedItem hg _ hfirst)
        cases next? with
        | none =>
          obtain ⟨_, _, _, h⟩ := bind_eq_some.1 h
          split at h
          · obtain ⟨rfl, -⟩ := pure_eq_some.1 h
            simpa using hstanding
          · cases h
        | some next =>
          obtain ⟨more, mid'', hmore, h⟩ := bind_eq_some.1 h
          obtain ⟨rfl, -⟩ := pure_eq_some.1 h
          obtain ⟨hmid', hfits'⟩ := endPosition_fits hall hmid.kept (perhaps_eq_some hnext)
          intro i hi
          rcases List.mem_cons.1 hi with rfl | hi
          · exact hstanding
          · exact ih hmid' hfits' hmore i hi

/-- All items of a text stand where their positions say. -/
theorem locate?_standing {text : List Char} {items : List PositionedItem}
    (h : locate? text = some items) :
    ∀ i ∈ items, i.Standing (tokenize text) (withoutMark text) := by
  obtain ⟨⟨items, left⟩, hitems, rfl⟩ := Option.map_eq_some_iff.1 h
  have hall := tokenize_succeed text
  refine positionedItems_standing hall (grammar_advances _) ⟨_, List.suffix_rfl, .inl rfl⟩ ?_ hitems
  intro t ht
  obtain ⟨rest, hrest⟩ : ∃ rest, tokenize text = t :: rest := List.head?_eq_some_iff.1 ht
  refine ⟨trivial, fun heof => ?_⟩
  rcases hall.gap (List.mem_of_mem_head? ht) heof with hgap | hgap
  · rw [hrest] at hall
    exact .inl (hgap.trans hall.head.1)
  · exact hgap

end FileGrammar

/-- The declarations of items, as a file keeps them. -/
def declarationsOf (items : List PositionedItem) : List Decl :=
  items.filterMap fun i =>
    match i.element with
    | .declaration decl => some decl
    | _ => none

theorem documented_docs {items : List PositionedItem} (h : ∀ i ∈ items, i.Standing all text) :
    (items.flatMap (·.documented)).map (·.element) = (declarationsOf items).flatMap Decl.docs := by
  induction items with
  | nil => rfl
  | cons i items ih =>
    have hi := h i List.mem_cons_self
    rw [List.flatMap_cons, List.map_append, ih fun i hi => h i (List.mem_cons_of_mem _ hi)]
    cases hitem : i.element with
    | declaration decl =>
      simp [declarationsOf, hitem, hi.docs decl hitem]
    | _ => simp [declarationsOf, hitem, PositionedItem.documented]

/-- A text that is a source file has located items, a package clause among them. -/
theorem SourceFile.exists_items {path text : String} {file : SourceFile}
    (h : SourceFile.parse path text = .ok file) :
    ∃ items, FileGrammar.locate? text.toList = some items ∧ file.decls = declarationsOf items ∧
      packageName (items.map (·.element)) ≠ "" := by
  rw [SourceFile.parse, FileGrammar.read?_eq] at h
  cases hitems : FileGrammar.locate? text.toList with
  | none => simp [hitems] at h
  | some items =>
    rw [hitems] at h
    by_cases hname : packageName (items.map (·.element)) = ""
    · simp [hname] at h
    · simp only [Option.map_some, hname, if_false] at h
      obtain rfl := Except.ok.inj h
      exact ⟨items, rfl, List.filterMap_map, hname⟩

end ResetMethods
