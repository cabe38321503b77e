import ResetMethods.Proofs.Layout.Types
import ResetMethods.Proofs.Types.Parts

/-!
# ResetMethods.Proofs.Printing.Shown

What the text of a type shows of it.

* `Ty.shown`: the type without what its text leaves out.
* `Ty.spellAll_eq`, `Ty.spellParams_eq`: the lists in a type are spelled item by item.
* `Ty.spell_shown`: the text depends on nothing else, as long as the qualifier of a package depends
  on its path alone.
-/

namespace ResetMethods

/-! ## What the text of a type shows -/

mutual

/-- A type as its text shows it: packages by their paths, and neither the names of embedded fields
nor the packages of fields. -/
def Ty.shown : Ty → Ty
  | .basic kind => .basic kind
  | .named n => .named (Named.shown n)
  | .pointer elem => .pointer elem.shown
  | .slice elem => .slice elem.shown
  | .array length elem => .array length elem.shown
  | .map key value => .map key.shown value.shown
  | .channel direction elem => .channel direction elem.shown
  | .function signature => .function (Signature.shown signature)
  | .struct fields => .struct (Ty.shownFields fields)
  | .interface methods embeds => .interface (Ty.shownMethods methods) (Ty.shownAll embeds)
  | .typeParam name => .typeParam name

def Named.shown : Named Ty → Named Ty
  | ⟨package, name, args⟩ => ⟨package.map fun p => ⟨p.path, ""⟩, name, Ty.shownAll args⟩

def Ty.shownAll : List Ty → List Ty
  | [] => []
  | ty :: rest => ty.shown :: Ty.shownAll rest

def Signature.shown : Signature Ty → Signature Ty
  | ⟨params, results, variadic⟩ => ⟨Ty.shownAll params, Ty.shownAll results, variadic⟩

def Ty.shownFields : List (Field Ty) → List (Field Ty)
  | [] => []
  | field :: rest => Field.shown field :: Ty.shownFields rest

def Field.shown : Field Ty → Field Ty
  | ⟨name, type, embedded, tag, _⟩ => ⟨if embedded then "" else name, type.shown, embedded, tag, ""⟩

def Ty.shownMethods : List (MethodSpec Ty) → List (MethodSpec Ty)
  | [] => []
  | method :: rest => MethodSpec.shown method :: Ty.shownMethods rest

def MethodSpec.shown : MethodSpec Ty → MethodSpec Ty
  | ⟨name, signature⟩ => ⟨name, Signature.shown signature⟩

end

section Lists

variable (q : PackageRef → String)

theorem Ty.shownAll_eq (tys : List Ty) : Ty.shownAll tys = tys.map (·.shown) := by
  induction tys with
  | nil => rfl
  | cons ty rest ih => rw [Ty.shownAll, ih, List.map_cons]

theorem Ty.shownFields_eq (fields : List (Field Ty)) :
    Ty.shownFields fields = fields.map Field.shown := by
  induction fields with
  | nil => rfl
  | cons field rest ih => rw [Ty.shownFields, ih, List.map_cons]

theorem Ty.shownMethods_eq (methods : List (MethodSpec Ty)) :
    Ty.shownMethods methods = methods.map MethodSpec.shown := by
  induction methods with
  | nil => rfl
  | cons method rest ih => rw [Ty.shownMethods, ih, List.map_cons]

theorem Ty.spellAll_eq (tys : List Ty) : Ty.spellAll q tys = tys.map (·.spell q) := by
  induction tys with
  | nil => rfl
  | cons ty rest ih => rw [Ty.spellAll, ih, List.map_cons]

theorem Ty.spellFields_eq (fields : List (Field Ty)) :
    Ty.spellFields q fields = fields.map (Field.spell q) := by
  induction fields with
  | nil => rfl
  | cons field rest ih => rw [Ty.spellFields, ih, List.map_cons]

theorem Ty.spellMethods_eq (methods : List (MethodSpec Ty)) :
    Ty.spellMethods q methods = methods.map (MethodSpec.spell q) := by
  induction methods with
  | nil => rfl
  | cons method rest ih => rw [Ty.spellMethods, ih, List.map_cons]

end Lists

/-- The parameters of a signature, and which of them is a variadic one. -/
def markedParams (variadic : Bool) : List Ty → List (Bool × Ty)
  | [] => []
  | [ty] => [(variadic, ty)]
  | ty :: next :: rest => (false, ty) :: markedParams variadic (next :: rest)

def spellMarked (q : PackageRef → String) : Bool × Ty → String
  | (true, .slice elem) => "..." ++ elem.spell q
  | (_, ty) => ty.spell q

theorem markedParams_snd (variadic : Bool) (params : List Ty) :
    (markedParams variadic params).map (·.2) = params := by
  induction params with
  | nil => rfl
  | cons ty rest ih =>
    cases rest with
    | nil => rfl
    | cons next rest => rw [markedParams, List.map_cons, ih]

theorem markedParams_any (variadic : Bool) {params : List Ty} (h : params ≠ []) :
    (markedParams variadic params).any (·.1) = variadic := by
  induction params with
  | nil => exact absurd rfl h
  | cons ty rest ih =>
    cases rest with
    | nil => simp [markedParams]
    | cons next rest => rw [markedParams, List.any_cons, ih (List.cons_ne_nil _ _), Bool.false_or]

theorem Ty.spellParams_eq (q : PackageRef → String) (variadic : Bool) (params : List Ty) :
    Ty.spellParams q variadic params = (markedParams variadic params).map (spellMarked q) := by
  induction params with
  | nil => rfl
  | cons ty rest ih =>
    cases rest with
    | nil =>
      cases ty <;> cases variadic <;> simp [Ty.spellParams, markedParams, spellMarked, Ty.spell]
    | cons next rest =>
      have hcons : Ty.spellParams q variadic (ty :: next :: rest) =
          ty.spell q :: Ty.spellParams q variadic (next :: rest) := by cases ty <;> rfl
      rw [hcons, ih, markedParams, List.map_cons]
      simp [spellMarked]

/-- Only the last parameter is a variadic one. -/
theorem mem_markedParams {variadic : Bool} {params : List Ty} {m : Bool × Ty}
    (h : m ∈ markedParams variadic params) :
    m.2 ∈ params ∧ (m.1 = true → variadic = true ∧ params.getLast? = some m.2) := by
  induction params with
  | nil => cases h
  | cons ty rest ih =>
    cases rest with
    | nil =>
      obtain rfl := List.mem_singleton.1 h
      exact ⟨List.mem_cons_self, fun hm => ⟨hm, rfl⟩⟩
    | cons next rest =>
      rcases List.mem_cons.1 h with rfl | h
      · exact ⟨List.mem_cons_self, fun hm => nomatch hm⟩
      · obtain ⟨hmem, hlast⟩ := ih h
        refine ⟨List.mem_cons_of_mem _ hmem, fun hm => ?_⟩
        rw [List.getLast?_cons_cons]
        exact hlast hm

/-! ## What a text depends on -/

section Shown

variable {q : PackageRef → String} {f : String → String}

theorem markedParams_shown (variadic : Bool) (params : List Ty) :
    markedParams variadic (params.map (·.shown)) =
      (markedParams variadic params).map fun m => (m.1, m.2.shown) := by
  induction params with
  | nil => rfl
  | cons ty rest ih =>
    cases rest with
    | nil => rfl
    | cons next rest =>
      rw [List.map_cons, List.map_cons, markedParams, markedParams, List.map_cons, ← ih,
        List.map_cons]

/-- The type has the same text as what is shown of it. -/
def Ty.SpeltAlike (q : PackageRef → String) (f : String → String) (ty : Ty) : Prop :=
  ty.spell q = ty.shown.spell fun p => f p.path

theorem spellMarked_shown {m : Bool × Ty} (h : m.2.SpeltAlike q f) :
    spellMarked q m = spellMarked (fun p => f p.path) (m.1, m.2.shown) := by
  obtain ⟨marked, ty⟩ := m
  cases marked with
  | false => exact h
  | true =>
    cases ty with
    | slice elem =>
      have helem : elem.SpeltAlike q f := by
        simpa [Ty.SpeltAlike, Ty.spell, Ty.shown] using h
      rw [spellMarked, Ty.shown, spellMarked, helem]
    | _ => exact h

theorem map_spell_shown {tys : List Ty} (h : ∀ c ∈ tys, c.SpeltAlike q f) :
    tys.map (·.spell q) = (tys.map (·.shown)).map (·.spell fun p => f p.path) := by
  rw [List.map_map]
  exact List.map_congr_left h

theorem Signature.spell_shown {s : Signature Ty} (h : ∀ c ∈ s.parts, c.SpeltAlike q f) :
    Signature.spell q s = Signature.spell (fun p => f p.path) (Signature.shown s) := by
  obtain ⟨params, results, variadic⟩ := s
  have hparams : (markedParams variadic params).map (spellMarked q) =
      (markedParams variadic (params.map (·.shown))).map (spellMarked fun p => f p.path) := by
    rw [markedParams_shown, List.map_map]
    refine List.map_congr_left fun m hm => spellMarked_shown (h m.2 ?_)
    exact List.mem_append_left _ (mem_markedParams hm).1
  rw [Signature.spell, Signature.shown, Signature.spell, Ty.spellParams_eq, Ty.spellParams_eq,
    Ty.spellAll_eq, Ty.spellAll_eq, Ty.shownAll_eq, Ty.shownAll_eq, hparams,
    map_spell_shown fun c hc => h c (List.mem_append_right _ hc)]

theorem Field.spell_shown {field : Field Ty} (h : field.type.SpeltAlike q f) :
    Field.spell q field = Field.spell (fun p => f p.path) (Field.shown field) := by
  obtain ⟨name, ty, embedded, tag, package⟩ := field
  have hty : ty.spell q = ty.shown.spell fun p => f p.path := h
  cases embedded <;> simp [Field.spell, Field.shown, hty]

theorem MethodSpec.spell_shown {m : MethodSpec Ty} (h : ∀ c ∈ m.signature.parts, c.SpeltAlike q f) :
    MethodSpec.spell q m = MethodSpec.spell (fun p => f p.path) (MethodSpec.shown m) := by
  obtain ⟨name, signature⟩ := m
  rw [MethodSpec.spell, MethodSpec.shown, MethodSpec.spell, Signature.spell_shown h]

/-- A text shows what it depends on, if the qualifiers depend on the paths alone. -/
theorem Ty.spell_shown {ty : Ty} (h : ∀ p name, ty.Refers p name → q p = f p.path) :
    ty.spell q = ty.shown.spell fun p => f p.path := by
  induction ty using Ty.children_induction with
  | h ty ih =>
    have hc : ∀ c ∈ ty.children, c.SpeltAlike q f := fun c hc =>
      ih c hc fun p name hr => h p name (hr.of_mentions (.head hc (.refl c)))
    cases ty with
    | basic kind =>
      by_cases hk : kind = .unsafePointer
      · subst hk
        rw [shown, spell, spell, h .unsafePackage "Pointer" ⟨_, .refl _, rfl⟩]
      · rw [shown, spell_basic q hk, spell_basic _ hk]
    | named n =>
      obtain ⟨package, name, args⟩ := n
      have hargs := map_spell_shown hc
      rw [shown, Named.shown, spell, spell, Named.spell, Named.spell, spellAll_eq, spellAll_eq,
        shownAll_eq]
      cases package with
      | none => exact congrArg (fun args => "" ++ name ++ bracketed args) hargs
      | some p =>
        have hp := h p name ⟨_, .refl _, rfl⟩
        exact congrArg₂ (fun front args => front ++ name ++ bracketed args) hp hargs
    | pointer elem => rw [shown, spell, spell, hc elem List.mem_cons_self]
    | slice elem => rw [shown, spell, spell, hc elem List.mem_cons_self]
    | array length elem => rw [shown, spell, spell, hc elem List.mem_cons_self]
    | map key value =>
      rw [shown, spell, spell, hc key List.mem_cons_self,
        hc value (List.mem_cons_of_mem _ List.mem_cons_self)]
    | channel direction elem => rw [shown, spell, spell, hc elem List.mem_cons_self]
    | function signature => rw [shown, spell, spell, Signature.spell_shown hc]
    | struct fields =>
      have hfields : fields.map (Field.spell q) =
          (fields.map Field.shown).map (Field.spell fun p => f p.path) := by
        rw [List.map_map]
        exact List.map_congr_left fun field hf =>
          Field.spell_shown (hc field.type (List.mem_map_of_mem hf))
      rw [shown, spell, spell, spellFields_eq, spellFields_eq, shownFields_eq, hfields]
    | interface methods embeds =>
      have hembeds := map_spell_shown fun c hmem => hc c (List.mem_append_left _ hmem)
      have hmethods : methods.map (MethodSpec.spell q) =
          (methods.map MethodSpec.shown).map (MethodSpec.spell fun p => f p.path) := by
        rw [List.map_map]
        exact List.map_congr_left fun m hm => MethodSpec.spell_shown fun c hpart =>
          hc c (List.mem_append_right _ (List.mem_flatMap.2 ⟨m, hm, hpart⟩))
      rw [shown, spell, spell, spellAll_eq, spellAll_eq, spellMethods_eq, spellMethods_eq,
        shownAll_eq, shownMethods_eq, hembeds, hmethods]
    | typeParam name => rfl

end Shown

end ResetMethods
