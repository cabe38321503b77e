import ResetMethods.Proofs.Layout.Closed
import ResetMethods.Types.Spelling

/-!
# ResetMethods.Proofs.Layout.Types

The text of a type changes nothing for the scanner of layouts.

* `Atom`: a name, a package or a text that the text of a type is made of. `Ty.atoms` lists them.
* `Atom.Ok`: names are identifiers, import paths can stand in quotes, and texts are closed.
* `Ty.spell_neutral`: the text of a type whose atoms are like this is neutral.
-/

namespace ResetMethods

open Layout Text

/-- What the text of a type is made of. -/
inductive Atom where
  | name (name : String)
  | package (package : PackageRef)
  /-- An array length or the tag of a field. -/
  | text (text : String)

/-- An import path that can stand in quotes. -/
def IsPath (path : String) : Prop := ∀ c ∈ path.toList, c ≠ '"' ∧ c ≠ '\\' ∧ c ≠ '\n'

theorem isPath_literal {path : String}
    (h : (path.toList.all fun c => c != '"' && c != '\\' && c != '\n') = true) : IsPath path := by
  intro c hc
  simpa [and_assoc] using List.all_eq_true.1 h c hc

/-- A package whose name is an identifier and whose path can stand in quotes. -/
structure PackageRef.Ok (package : PackageRef) : Prop where
  name : IsWord package.name
  path : IsPath package.path

/-- Names are identifiers, and import paths can stand in quotes. Texts are left open. -/
def Atom.WellNamed : Atom → Prop
  | .name n => IsWord n
  | .package p => p.Ok
  | .text _ => True

def Atom.Ok : Atom → Prop
  | .name n => IsWord n
  | .package p => p.Ok
  | .text t => Closed t.toList

theorem Atom.Ok.wellNamed {a : Atom} (h : a.Ok) : a.WellNamed := by
  cases a with
  | name n => exact h
  | package p => exact h
  | text t => trivial

mutual

/-- The atoms of a type. -/
def Ty.atoms : Ty → List Atom
  | .basic _ => []
  | .named n => Named.atoms n
  | .pointer elem => elem.atoms
  | .slice elem => elem.atoms
  | .array length elem => .text length :: elem.atoms
  | .map key value => key.atoms ++ value.atoms
  | .channel _ elem => elem.atoms
  | .function signature => Signature.atoms signature
  | .struct fields => Ty.atomsOfFields fields
  | .interface methods embeds => Ty.atomsOfAll embeds ++ Ty.atomsOfMethods methods
  | .typeParam name => [.name name]

def Named.atoms : Named Ty → List Atom
  | ⟨package, name, args⟩ => package.toList.map .package ++ .name name :: Ty.atomsOfAll args

def Ty.atomsOfAll : List Ty → List Atom
  | [] => []
  | ty :: rest => ty.atoms ++ Ty.atomsOfAll rest

def Signature.atoms : Signature Ty → List Atom
  | ⟨params, results, _⟩ => Ty.atomsOfAll params ++ Ty.atomsOfAll results

def Ty.atomsOfFields : List (Field Ty) → List Atom
  | [] => []
  | field :: rest => Field.atoms field ++ Ty.atomsOfFields rest

def Field.atoms : Field Ty → List Atom
  | ⟨name, type, _, tag, _⟩ => .name name :: type.atoms ++ tag.toList.map .text

def Ty.atomsOfMethods : List (MethodSpec Ty) → List Atom
  | [] => []
  | method :: rest => MethodSpec.atoms method ++ Ty.atomsOfMethods rest

def MethodSpec.atoms : MethodSpec Ty → List Atom
  | ⟨name, signature⟩ => .name name :: Signature.atoms signature

end

/-! ## Pieces of text -/

theorem IsWord.neutral {name : String} (h : IsWord name) : Neutral name.toList :=
  neutral_of_plain fun c hc => isPlain_of_isWordChar (h.all c hc)

/-- Pieces with a separator between them. -/
theorem bounded_join {sep : String} (hs : Neutral sep.toList) (hn : sep.toList ≠ [])
    (hp : parts sep.toList) {items : List String} (h : ∀ s ∈ items, Bounded s.toList) :
    Bounded (join sep items).toList := by
  induction items with
  | nil => exact Neutral.nil.bounded
  | cons s rest ih =>
    obtain ⟨hs', h⟩ := List.forall_mem_cons.1 h
    cases rest with
    | nil => exact hs'
    | cons t rest =>
      have hrest := hs.append_bounded (ih h)
      have hparts : parts (sep.toList ++ (join sep (t :: rest)).toList) := by
        obtain ⟨c, cs, hc⟩ := List.exists_cons_of_ne_nil hn
        rw [hc] at hp ⊢
        exact hp
      rw [join, String.toList_append, String.toList_append, List.append_assoc]
      exact hs'.append hrest (by simp [hn]) hparts

theorem bounded_commas {items : List String} (h : ∀ s ∈ items, Neutral s.toList) :
    Bounded (join ", " items).toList :=
  bounded_join (neutral_literal rfl) (by decide) (by decide) fun s hs => (h s hs).bounded

theorem neutral_bracketed {items : List String} (h : ∀ s ∈ items, Neutral s.toList) :
    Neutral (bracketed items).toList := by
  cases items with
  | nil => exact Neutral.nil
  | cons s rest =>
    have he := (bounded_commas h).enclosed (c := ']') rfl
    simpa [bracketed] using he

theorem neutral_spellResults {items : List String} (h : ∀ s ∈ items, Neutral s.toList) :
    Neutral (spellResults items).toList := by
  have hspace : Neutral " ".toList := neutral_literal rfl
  unfold spellResults
  split
  · exact Neutral.nil
  · rename_i single
    exact hspace.concat (h single List.mem_cons_self)
  · have he := (bounded_commas h).enclosed (c := ')') rfl
    have hp := hspace.append he
    simpa using hp

theorem neutral_spellMembers {keyword : String} (hk : Neutral keyword.toList) {items : List String}
    (h : ∀ s ∈ items, Bounded s.toList) : Neutral (spellMembers keyword items).toList := by
  have hspace : Neutral " ".toList := neutral_literal rfl
  unfold spellMembers
  split
  · have he := Neutral.nil.bounded.enclosed (c := '}') rfl
    have hp := hk.append he
    simpa using hp
  · have hj : Bounded (join "; " items).toList :=
      bounded_join (neutral_literal rfl) (by decide) (by decide) h
    have hin := (hspace.append_bounded hj).append_neutral hspace (by decide) (by decide)
    have he := hin.bounded.enclosed (c := '}') rfl
    have hp := hk.append he
    simpa using hp

theorem neutral_spellChannel {elem : String} (h : Neutral elem.toList) (direction : Direction) :
    Neutral (spellChannel direction elem).toList := by
  have hchan : Neutral "chan ".toList := neutral_literal rfl
  unfold spellChannel
  split
  · exact Neutral.concat (neutral_literal rfl) h
  · exact Neutral.concat (neutral_literal rfl) h
  · split
    · have he := h.bounded.enclosed (c := ')') rfl
      have hp := hchan.append he
      simpa using hp
    · exact hchan.concat h

/-! ## Types -/

theorem BasicKind.neutral_name (kind : BasicKind) : Neutral kind.name.toList := by
  cases kind <;> exact neutral_literal rfl

theorem Ty.spell_basic (q : PackageRef → String) {kind : BasicKind} (h : kind ≠ .unsafePointer) :
    (Ty.basic kind).spell q = kind.name := by
  cases kind <;> first | rfl | exact absurd rfl h

/-- A parameter is written as its type, or after dots as the element of its type. -/
theorem Ty.mem_spellParams {q : PackageRef → String} {variadic : Bool} {params : List Ty}
    {s : String} (h : s ∈ Ty.spellParams q variadic params) :
    s ∈ Ty.spellAll q params ∨
      ∃ elem : Ty, "[]" ++ elem.spell q ∈ Ty.spellAll q params ∧ s = "..." ++ elem.spell q := by
  induction params with
  | nil => exact .inl h
  | cons ty rest ih =>
    have hother : s ∈ ty.spell q :: Ty.spellParams q variadic rest →
        s ∈ Ty.spellAll q (ty :: rest) ∨ ∃ elem : Ty,
          "[]" ++ elem.spell q ∈ Ty.spellAll q (ty :: rest) ∧ s = "..." ++ elem.spell q := by
      intro h
      rw [Ty.spellAll]
      obtain rfl | h := List.mem_cons.1 h
      · exact .inl List.mem_cons_self
      · obtain h | ⟨elem, he, rfl⟩ := ih h
        · exact .inl (List.mem_cons_of_mem _ h)
        · exact .inr ⟨elem, List.mem_cons_of_mem _ he, rfl⟩
    cases rest with
    | cons _ _ => cases ty <;> exact hother h
    | nil =>
      cases ty with
      | slice elem =>
        rw [Ty.spellParams, List.mem_singleton] at h
        split at h
        · exact .inr ⟨elem, List.mem_cons_self, h⟩
        · exact .inl (h ▸ List.mem_cons_self)
      | _ => exact hother h

theorem PackageRef.ok_unsafePackage : PackageRef.unsafePackage.Ok :=
  ⟨isWord_literal rfl, isPath_literal rfl⟩

/-- What stands before a name changes nothing for the scanner. -/
def Qualifies (q : PackageRef → String) : Prop :=
  ∀ p : PackageRef, p.Ok → Neutral (q p).toList

variable {q : PackageRef → String}

theorem neutral_qualifierOf (hq : Qualifies q) {package : Option PackageRef}
    (h : ∀ p ∈ package, p.Ok) :
    Neutral (qualifierOf q package).toList := by
  cases package with
  | none => exact Neutral.nil
  | some p => exact hq p (h p rfl)

mutual

/-- The text of a type changes nothing for the scanner. -/
theorem Ty.spell_neutral (hq : Qualifies q) :
    ∀ ty : Ty, (∀ a ∈ ty.atoms, a.Ok) → Neutral (ty.spell q).toList
  | .basic kind, _ => by
    by_cases hk : kind = .unsafePointer
    · subst hk
      rw [Ty.spell]
      exact (hq _ PackageRef.ok_unsafePackage).concat (neutral_literal rfl)
    · rw [Ty.spell_basic q hk]
      exact kind.neutral_name
  | .named n, h => Named.spell_neutral hq n h
  | .pointer elem, h => by
    rw [Ty.spell]
    exact Neutral.concat (neutral_literal rfl) (Ty.spell_neutral hq elem h)
  | .slice elem, h => by
    have hb := Neutral.nil.bounded.enclosed (c := ']') rfl
    have hn := hb.append (Ty.spell_neutral hq elem h)
    simpa [Ty.spell] using hn
  | .array length elem, h => by
    obtain ⟨hl, h⟩ := List.forall_mem_cons.1 h
    have hb := hl.bounded.enclosed (c := ']') rfl
    have hn := hb.append (Ty.spell_neutral hq elem h)
    simpa [Ty.spell] using hn
  | .map key value, h => by
    obtain ⟨hk, hv⟩ := List.forall_mem_append.1 h
    have hmap : Neutral "map".toList := neutral_literal rfl
    have hb := (Ty.spell_neutral hq key hk).bounded.enclosed (c := ']') rfl
    have hn := hmap.append (hb.append (Ty.spell_neutral hq value hv))
    simpa [Ty.spell] using hn
  | .channel direction elem, h => by
    rw [Ty.spell]
    exact neutral_spellChannel (Ty.spell_neutral hq elem h) direction
  | .function signature, h => by
    rw [Ty.spell]
    exact Neutral.concat (neutral_literal rfl) (Signature.spell_neutral hq signature h)
  | .struct fields, h => by
    rw [Ty.spell]
    exact neutral_spellMembers (neutral_literal rfl) (Ty.spellFields_bounded hq fields h)
  | .interface methods embeds, h => by
    obtain ⟨he, hm⟩ := List.forall_mem_append.1 h
    rw [Ty.spell]
    refine neutral_spellMembers (neutral_literal rfl) ?_
    intro s hs
    obtain hs | hs := List.mem_append.1 hs
    · exact (Ty.spellAll_neutral hq embeds he s hs).bounded
    · exact (Ty.spellMethods_neutral hq methods hm s hs).bounded
  | .typeParam name, h => by
    rw [Ty.spell]
    exact IsWord.neutral (h (.name name) List.mem_cons_self)

theorem Named.spell_neutral (hq : Qualifies q) :
    ∀ n : Named Ty, (∀ a ∈ Named.atoms n, a.Ok) →
    Neutral (Named.spell q n).toList
  | ⟨package, name, args⟩, h => by
    obtain ⟨hp, h⟩ := List.forall_mem_append.1 h
    obtain ⟨hn, ha⟩ := List.forall_mem_cons.1 h
    have hp : ∀ p ∈ package, p.Ok := by
      intro p hm
      exact hp (.package p) (List.mem_map.2 ⟨p, Option.mem_toList.2 hm, rfl⟩)
    rw [Named.spell]
    exact ((neutral_qualifierOf hq hp).concat (IsWord.neutral hn)).concat
      (neutral_bracketed (Ty.spellAll_neutral hq args ha))

theorem Ty.spellAll_neutral (hq : Qualifies q) :
    ∀ tys : List Ty, (∀ a ∈ Ty.atomsOfAll tys, a.Ok) →
    ∀ s ∈ Ty.spellAll q tys, Neutral s.toList
  | [], _ => by simp [Ty.spellAll]
  | ty :: rest, h => by
    obtain ⟨hty, hrest⟩ := List.forall_mem_append.1 h
    exact List.forall_mem_cons.2 ⟨Ty.spell_neutral hq ty hty, Ty.spellAll_neutral hq rest hrest⟩

theorem Signature.spell_neutral (hq : Qualifies q) :
    ∀ signature : Signature Ty,
    (∀ a ∈ Signature.atoms signature, a.Ok) → Neutral (Signature.spell q signature).toList
  | ⟨params, results, variadic⟩, h => by
    obtain ⟨hp, hr⟩ := List.forall_mem_append.1 h
    have hparams : ∀ s ∈ Ty.spellParams q variadic params, Neutral s.toList := by
      intro s hs
      obtain hs | ⟨elem, he, rfl⟩ := Ty.mem_spellParams hs
      · exact Ty.spellAll_neutral hq params hp s hs
      · have hb : Neutral "[]".toList := Neutral.nil.bounded.enclosed (c := ']') rfl
        have hn := Ty.spellAll_neutral hq params hp _ he
        rw [String.toList_append] at hn ⊢
        exact (neutral_literal rfl).append (hb.of_append hn)
    have hb := (bounded_commas hparams).enclosed (c := ')') rfl
    have hn := hb.append (neutral_spellResults (Ty.spellAll_neutral hq results hr))
    simpa [Signature.spell] using hn

theorem Ty.spellFields_bounded (hq : Qualifies q) :
    ∀ fields : List (Field Ty),
    (∀ a ∈ Ty.atomsOfFields fields, a.Ok) → ∀ s ∈ Ty.spellFields q fields, Bounded s.toList
  | [], _ => by simp [Ty.spellFields]
  | field :: rest, h => by
    obtain ⟨hf, hrest⟩ := List.forall_mem_append.1 h
    exact List.forall_mem_cons.2
      ⟨Field.spell_bounded hq field hf, Ty.spellFields_bounded hq rest hrest⟩

theorem Field.spell_bounded (hq : Qualifies q) :
    ∀ field : Field Ty, (∀ a ∈ Field.atoms field, a.Ok) →
    Bounded (Field.spell q field).toList
  | ⟨name, type, embedded, tag, _⟩, h => by
    obtain ⟨hn, h⟩ := List.forall_mem_cons.1 h
    obtain ⟨hty, htag⟩ := List.forall_mem_append.1 h
    have hspace : Neutral " ".toList := neutral_literal rfl
    have hname : Neutral (if embedded then "" else name ++ " ").toList := by
      split
      · exact Neutral.nil
      · exact (IsWord.neutral hn).concat hspace
    have hfront := hname.append (Ty.spell_neutral hq type hty)
    cases tag with
    | none => simpa [Field.spell] using hfront.bounded
    | some t =>
      have ht : Closed t.toList := htag (.text t) List.mem_cons_self
      have hb := hfront.append_bounded (hspace.append_bounded ht.bounded)
      simpa [Field.spell] using hb

theorem Ty.spellMethods_neutral (hq : Qualifies q) :
    ∀ methods : List (MethodSpec Ty),
    (∀ a ∈ Ty.atomsOfMethods methods, a.Ok) → ∀ s ∈ Ty.spellMethods q methods, Neutral s.toList
  | [], _ => by simp [Ty.spellMethods]
  | method :: rest, h => by
    obtain ⟨hm, hrest⟩ := List.forall_mem_append.1 h
    exact List.forall_mem_cons.2
      ⟨MethodSpec.spell_neutral hq method hm, Ty.spellMethods_neutral hq rest hrest⟩

theorem MethodSpec.spell_neutral (hq : Qualifies q) :
    ∀ method : MethodSpec Ty,
    (∀ a ∈ MethodSpec.atoms method, a.Ok) → Neutral (MethodSpec.spell q method).toList
  | ⟨name, signature⟩, h => by
    obtain ⟨hn, hs⟩ := List.forall_mem_cons.1 h
    rw [MethodSpec.spell]
    exact (IsWord.neutral hn).concat (Signature.spell_neutral hq signature hs)

end

end ResetMethods
