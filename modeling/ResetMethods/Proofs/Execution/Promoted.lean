import ResetMethods.Proofs.Execution.Semantics
import ResetMethods.Proofs.MethodSet.Promotion

/-!
# ResetMethods.Proofs.Execution.Promoted

Calls of a `Reset()` that a struct promotes, on values whose embedded pointers and interfaces are
`nil`.

* `Embedding`: an embedded field, which may be a pointer to what it embeds.
* `Finds`: the embedded fields along which a type is found to have `Reset()`.
* `selectsAt_of_finds`: where nothing is disputed, a selector goes the same way.
* `Receives`: the receiver that a promoted call gets, found field by field.
* `Blank`: a value in which all that is embedded is `nil` if it can be. `blank_of_isZero`: so it is in
  a zero value.
* `Clear`: a path that crosses no interface, and a pointer only at its end and to a type that is
  about to get its method.
* `call_promoted`: a struct is reset by its own method or by a promoted one. On a blank value the
  call is certain to get along without following a `nil` exactly if the path to the method is clear.
-/

namespace ResetMethods

/-- What an embedded field embeds. -/
structure Embedding where
  /-- The field is a pointer to it. -/
  pointer : Bool
  type : Ty

/-- A type that stands for an interface type, however many declarations lead there. -/
def TypeTable.StandsForInterface (t : TypeTable) (ty : Ty) : Prop :=
  ∃ methods embeds, t.StandsFor ty (.interface methods embeds)

namespace Surroundings

/-- What a field of a type embeds: aliases followed, one pointer removed. -/
def embedding? (s : Surroundings) (ty : Ty) : Option Embedding :=
  match s.table.unalias ty with
  | some (.pointer elem) => some ⟨true, elem⟩
  | some inner => some ⟨false, inner⟩
  | none => none

/-- What some fields embed, in order. -/
def embeddings (s : Surroundings) (fields : List (Field Ty)) : List Embedding :=
  (fields.filter (·.embedded)).filterMap fun f => s.embedding? f.type

/-- What some fields embed, with the values of these fields. -/
def embeddedValues (s : Surroundings) (fields : List (Field Ty)) (values : List GoValue) :
    List (Embedding × GoValue) :=
  ((fields.zip values).filter (·.1.embedded)).filterMap fun (f, v) =>
    (s.embedding? f.type).map (·, v)

/-- The embedded field number `i` of a type. -/
inductive Embeds (s : Surroundings) (ty : Ty) (i : Nat) (e : Embedding) : Prop where
  | mk {fields : List (Field Ty)} : s.table.StandsFor ty (.struct fields) →
      (s.embeddings fields)[i]? = some e → Embeds s ty i e

variable {s : Surroundings} {ty inner : Ty} {fields : List (Field Ty)} {values : List GoValue}
  {i n : Nat} {path : List Nat} {e : Embedding}

theorem embedding?_type (s : Surroundings) (ty : Ty) :
    (s.embedding? ty).map (·.type) = s.promotedFrom ty := by
  unfold embedding? promotedFrom
  split <;> simp_all

/-- The embedded fields are counted in the same way as the types that they promote. -/
theorem embeddings_types (s : Surroundings) (fields : List (Field Ty)) :
    (s.embeddings fields).map (·.type) =
      (fields.filter (·.embedded)).filterMap fun f => s.promotedFrom f.type := by
  rw [embeddings, List.map_filterMap]
  simp only [embedding?_type]

theorem embeddedTypes_eq (hu : s.table.underlying ty = some (.struct fields)) :
    s.embeddedTypes ty = (s.embeddings fields).map (·.type) := by
  rw [embeddedTypes, hu, embeddings_types]

/-- Each embedding has a value. -/
theorem embeddedValues_fst (s : Surroundings) (h : values.length = fields.length) :
    (s.embeddedValues fields values).map (·.1) = s.embeddings fields := by
  unfold embeddedValues embeddings
  induction fields generalizing values with
  | nil => rfl
  | cons f fields ih =>
    cases values with
    | nil => cases h
    | cons v values =>
      have ih := ih (Nat.succ.inj h)
      cases he : f.embedded with
      | false => simpa [he] using ih
      | true => cases hf : s.embedding? f.type <;> simpa [he, hf] using ih

theorem exists_embeddedValue (h : values.length = fields.length)
    (he : (s.embeddings fields)[i]? = some e) :
    ∃ v, (s.embeddedValues fields values)[i]? = some (e, v) := by
  rw [← embeddedValues_fst s h, List.getElem?_map, Option.map_eq_some_iff] at he
  obtain ⟨⟨e, v⟩, hv, rfl⟩ := he
  exact ⟨v, hv⟩

theorem Embeds.unique {e' : Embedding} (h : s.Embeds ty i e) (h' : s.Embeds ty i e') : e = e' := by
  obtain ⟨hs, he⟩ := h
  obtain ⟨hs', he'⟩ := h'
  cases hs.unique hs'
  exact Option.some.inj (he.symm.trans he')

/-! ## The search for a promoted method -/

/-- With `n` levels to go, `Reset()` is found on a type along these embedded fields. -/
inductive Finds (s : Surroundings) : Nat → Ty → List Nat → Prop where
  | own {n : Nat} {ty : Ty} :
      s.isInterface ty = false → s.Owns ty .reset → Finds s (n + 1) ty []
  | asked {n : Nat} {ty : Ty} {methods : List (MethodSpec Ty)} {embeds : List Ty} :
      s.table.underlying ty = some (.interface methods embeds) →
      s.asksResetWithin n methods embeds = true → Finds s n ty []
  /-- The only embedded field on which it is found. -/
  | promoted {n i : Nat} {ty : Ty} {path : List Nat} {d : Declaration} {fields : List (Field Ty)}
      {e : Embedding} :
      s.isInterface ty = false → s.table.declaration ty = some d → d.key ∉ s.pending →
      d.methods.any (·.name == "Reset") = false →
      s.table.underlying d.rhs = some (.struct fields) → fields.any (·.name == "Reset") = false →
      (s.embeddings fields)[i]? = some e → Finds s n e.type path →
      (∀ j e', j ≠ i → (s.embeddings fields)[j]? = some e' →
        s.providesWithin n e'.type = false) →
      Finds s (n + 1) ty (i :: path)

theorem isInterface_iff :
    s.isInterface ty = true ↔
      ∃ methods embeds, s.table.underlying ty = some (.interface methods embeds) := by
  unfold isInterface
  split <;> simp_all

/-- What is found is found along some embedded fields. -/
theorem exists_finds (h : s.providesWithin n ty = true) : ∃ path, s.Finds n ty path := by
  induction n generalizing ty with
  | zero =>
    unfold providesWithin at h
    split at h <;> cases h
  | succ n ih =>
    cases hi : s.isInterface ty with
    | true =>
      obtain ⟨methods, embeds, hu⟩ := isInterface_iff.1 hi
      rw [providesWithin_interface hu] at h
      exact ⟨[], .asked hu h⟩
    | false =>
      rw [providesWithin_of_not_interface hi, hasResetWithin] at h
      cases hd : s.table.declaration ty with
      | none => simp [hd] at h
      | some d =>
        rw [hd] at h
        by_cases ho : s.Owns ty .reset
        · exact ⟨[], .own hi ho⟩
        have hown : d.key ∉ s.pending ∧ ¬ d.methods.any (·.isReset) = true := by
          simpa [owns_reset_iff hd hi] using ho
        simp only [List.contains_iff_mem, hown.1, if_false, hown.2] at h
        cases hm : d.methods.any (·.name == "Reset") with
        | true => simp [hm] at h
        | false =>
          simp only [hm, Bool.false_eq_true, if_false] at h
          split at h
          · rename_i fields hu
            cases hf : fields.any (·.name == "Reset") with
            | true => simp [hf] at h
            | false =>
              simp only [hf, Bool.false_eq_true, if_false, beq_iff_eq] at h
              have hone : ((s.embeddings fields).map (·.type) |>.filter
                  (s.providesWithin n)).length = 1 := by
                rw [embeddings_types, ← length_filter_embedded]
                exact h
              obtain ⟨i, inner, hget, hp, honly⟩ := length_filter_eq_one.1 hone
              rw [List.getElem?_map, Option.map_eq_some_iff] at hget
              obtain ⟨e, hget, rfl⟩ := hget
              obtain ⟨path, hpath⟩ := ih hp
              refine ⟨i :: path, .promoted hi hd hown.1 hm hu hf hget hpath fun j e' hj he' => ?_⟩
              exact honly j e'.type hj (by rw [List.getElem?_map, he']; rfl)
          · cases h

/-- Where nothing is disputed, a selector goes the way that is found. -/
theorem selectsAt_of_finds {k : Nat} (h : s.Finds n ty path) (hk : s.NestsWithin k ty)
    (hkn : k ≤ n) (hn : n ≤ depthLimit + 1) (hu : ∀ inner, s.Reaches ty inner → s.Undisputed inner) :
    s.SelectsAt ty path := by
  induction h generalizing k with
  | own _ ho => exact selectsAt_nil.2 ⟨ho, (hu _ .refl).own ho⟩
  | asked hi ha =>
    have ho : s.Owns _ .reset := .demanded (demands_of_asksResetWithin hi ha)
    exact selectsAt_nil.2 ⟨ho, (hu _ .refl).own ho⟩
  | @promoted n i ty path d fields e hi hd hp hm hrhs hf he hfind honly ih =>
    obtain ⟨k, d', shape, rfl, hd', hunder, hin⟩ := hk.not_interface hi
    cases hd.symm.trans hd'
    cases hrhs.symm.trans (TypeTable.underlying_rhs hd hunder)
    have htypes := embeddedTypes_eq hunder
    have hget : (s.embeddedTypes ty)[i]? = some e.type := by
      rw [htypes, List.getElem?_map, he]
      rfl
    have hmem : e.type ∈ s.embeddedTypes ty := List.mem_of_getElem? hget
    have hnone := (owns_nothing_iff hd hi).2 ⟨hp, hm, fun fields hu => by
      cases hunder.symm.trans hu
      exact hf⟩
    have hselects := ih (hin _ hmem) (by omega) (by omega) fun inner hr => hu inner (.head hmem hr)
    refine selectsAt_cons.2 ⟨hnone, e.type, hget, hselects, ?_⟩
    refine ((hu ty .refl).promoted hnone hget hselects).1 fun {j inner} hj hgetj hsel => ?_
    have hmemj : inner ∈ s.embeddedTypes ty := List.mem_of_getElem? hgetj
    have hprovides : s.provides inner = true := by
      have hagree := (agrees_throughout_iff (hin _ hmemj) (by omega)).2
        fun deep hr => hu deep (.head hmemj hr)
      exact (hagree inner .refl).2 hsel
    rw [htypes, List.getElem?_map, Option.map_eq_some_iff] at hgetj
    obtain ⟨e', he', rfl⟩ := hgetj
    have hnot := honly j e' hj he'
    rw [providesWithin_eq (hin _ hmemj) (by omega)] at hnot
    rw [provides, providesWithin_eq (hin _ hmemj) (by omega), hnot] at hprovides
    cases hprovides

/-! ## Calls -/

/-- A type that is about to get its method. -/
def IsPending (s : Surroundings) (ty : Ty) : Prop :=
  ∃ d, s.table.declaration ty = some d ∧ d.key ∈ s.pending

/-- The type that a call reaches along some embedded fields, and the receiver that it gets there.
`none` is a `nil` receiver. -/
inductive Receives (s : Surroundings) :
    List Nat → Ty → GoValue → Except Fault (Ty × Option GoValue) → Prop where
  | own {ty : Ty} (v : GoValue) :
      ¬ s.table.StandsForInterface ty → Receives s [] ty v (.ok (ty, some v))
  | held {ty dynamic : Ty} (v : GoValue) : s.table.StandsForInterface ty →
      Receives s [] ty (.interface (some (dynamic, v))) (.ok (dynamic, some v))
  | nilInterface {ty : Ty} : s.table.StandsForInterface ty →
      Receives s [] ty (.interface none) (.error .nilDereference)
  | embedded {i : Nat} {path : List Nat} {ty inner : Ty} {fields : List (Field Ty)}
      {values : List GoValue} {v : GoValue} {result : Except Fault (Ty × Option GoValue)} :
      s.table.StandsFor ty (.struct fields) →
      (s.embeddedValues fields values)[i]? = some (⟨false, inner⟩, v) →
      Receives s path inner v result → Receives s (i :: path) ty (.struct values) result
  | target {i : Nat} {path : List Nat} {ty inner : Ty} {fields : List (Field Ty)}
      {values : List GoValue} {v : GoValue} {result : Except Fault (Ty × Option GoValue)} :
      s.table.StandsFor ty (.struct fields) →
      (s.embeddedValues fields values)[i]? = some (⟨true, inner⟩, .pointer (some v)) →
      Receives s path inner v result → Receives s (i :: path) ty (.struct values) result
  /-- A method with a pointer receiver is called on a `nil` pointer. -/
  | nilReceiver {i : Nat} {ty inner : Ty} {fields : List (Field Ty)} {values : List GoValue} :
      s.table.StandsFor ty (.struct fields) →
      (s.embeddedValues fields values)[i]? = some (⟨true, inner⟩, .pointer none) →
      Receives s [i] ty (.struct values) (.ok (inner, none))
  | nilPointer {i j : Nat} {path : List Nat} {ty inner : Ty} {fields : List (Field Ty)}
      {values : List GoValue} : s.table.StandsFor ty (.struct fields) →
      (s.embeddedValues fields values)[i]? = some (⟨true, inner⟩, .pointer none) →
      Receives s (i :: j :: path) ty (.struct values) (.error .nilDereference)

/-- A call that is certain not to follow a `nil`: it gets a receiver, and a `nil` one only if its
method is a generated one, which returns at once. -/
def RunsSafely (s : Surroundings) (path : List Nat) (ty : Ty) (v : GoValue) : Prop :=
  ∃ inner receiver, s.Receives path ty v (.ok (inner, receiver)) ∧
    (receiver = none → s.IsPending inner)

/-- A value in which every embedded pointer or interface is `nil`, at any depth. -/
inductive Blank (s : Surroundings) : Ty → GoValue → Prop where
  | interface {ty : Ty} : s.table.StandsForInterface ty → Blank s ty (.interface none)
  | struct {ty : Ty} {fields : List (Field Ty)} {values : List GoValue} :
      s.table.StandsFor ty (.struct fields) → values.length = fields.length →
      (∀ inner v, (⟨true, inner⟩, v) ∈ s.embeddedValues fields values → v = .pointer none) →
      (∀ inner v, (⟨false, inner⟩, v) ∈ s.embeddedValues fields values → Blank s inner v) →
      Blank s ty (.struct values)
  | other {ty : Ty} (v : GoValue) : ¬ s.table.StandsForInterface ty →
      (∀ fields, ¬ s.table.StandsFor ty (.struct fields)) → Blank s ty v

/-- What a value of a type holds without a pointer between: itself and its embedded fields, at any
depth. -/
inductive Holds (s : Surroundings) : Ty → Ty → Prop where
  | refl (ty : Ty) : Holds s ty ty
  | embedded {ty inner : Ty} {fields : List (Field Ty)} {f : Field Ty} :
      s.table.StandsFor ty (.struct fields) → f ∈ fields → f.embedded = true →
      Holds s f.type inner → Holds s ty inner

/-- Only what a type stands for decides which of its values are blank. -/
theorem Blank.congr {v : GoValue} (h : s.Blank ty v)
    (hs : ∀ shape, s.table.StandsFor ty shape ↔ s.table.StandsFor inner shape) :
    s.Blank inner v := by
  have hi : s.table.StandsForInterface ty ↔ s.table.StandsForInterface inner := by
    simp only [TypeTable.StandsForInterface, hs]
  cases h with
  | interface h => exact .interface (hi.1 h)
  | struct h hl hp hv => exact .struct ((hs _).1 h) hl hp hv
  | other _ hno hstruct => exact .other v (hno ∘ hi.2) fun fields h => hstruct fields ((hs _).2 h)

/-- A value of a type literal that is no interface and no struct embeds nothing. -/
theorem blank_of_standsFor {shape : Ty} (hs : s.table.StandsFor ty shape)
    (hi : ∀ methods embeds, shape ≠ .interface methods embeds)
    (hf : ∀ fields, shape ≠ .struct fields) (v : GoValue) : s.Blank ty v := by
  refine .other v ?_ fun fields h => hf fields (hs.unique h)
  rintro ⟨methods, embeds, h⟩
  exact hi methods embeds (hs.unique h)

theorem mem_embeddedValues {v : GoValue} (h : (e, v) ∈ s.embeddedValues fields values) :
    ∃ (i : Nat) (f : Field Ty), fields[i]? = some f ∧ values[i]? = some v ∧ f.embedded = true ∧
      s.embedding? f.type = some e := by
  obtain ⟨⟨f, w⟩, hmem, hw⟩ := List.mem_filterMap.1 h
  obtain ⟨hmem, hembedded⟩ := List.mem_filter.1 hmem
  obtain ⟨e', he, heq⟩ := Option.map_eq_some_iff.1 hw
  cases heq
  obtain ⟨i, hi⟩ := List.mem_iff_getElem?.1 hmem
  obtain ⟨hf, hv⟩ := List.getElem?_zip_eq_some.1 hi
  exact ⟨i, f, hf, hv, hembedded, he⟩

theorem unalias_of_embedding? {ty : Ty} (h : s.embedding? ty = some e) :
    s.table.unalias ty = some (if e.pointer then .pointer e.type else e.type) := by
  unfold embedding? at h
  split at h <;> cases h
  all_goals simpa

/-- A zero value is blank, where all that it holds stands for types of known shape, or for none. -/
theorem blank_of_isZero {x : Externals} {z : GoValue} (hz : IsZero s.table x ty z)
    (hshape : ∀ inner shape, s.Holds ty inner → s.table.StandsFor inner shape →
      s.table.shape? inner = some shape) : s.Blank ty z := by
  induction hz with
  | @struct ty fields values hs hl hzero ih =>
    have hstands := TypeTable.standsFor_of_shape? hs
    refine .struct hstands hl (fun inner v hv => ?_) fun inner v hv => ?_
    · obtain ⟨i, f, hf, hv, hembedded, he⟩ := mem_embeddedValues hv
      have hpointer : s.table.StandsFor f.type (.pointer inner) :=
        (TypeTable.standsFor_unalias (unalias_of_embedding? he)).2 ⟨1, rfl⟩
      have hholds : s.Holds ty f.type :=
        .embedded hstands (List.mem_of_getElem? hf) hembedded (.refl _)
      exact (hzero i f v hf hv).unique (.pointer (hshape _ _ hholds hpointer))
    · obtain ⟨i, f, hf, hv, hembedded, he⟩ := mem_embeddedValues hv
      have hblank := ih i f v hf hv fun deep shape hd =>
        hshape deep shape (.embedded hstands (List.mem_of_getElem? hf) hembedded hd)
      exact hblank.congr fun shape => TypeTable.standsFor_unalias (unalias_of_embedding? he)
  | interface hs => exact .interface ⟨_, _, TypeTable.standsFor_of_shape? hs⟩
  | @foreign ty hs =>
    have hnone : ∀ shape, ¬ s.table.StandsFor ty shape := by
      intro shape h
      cases hs.symm.trans (hshape _ shape (.refl _) h)
    exact .other _ (fun ⟨_, _, h⟩ => hnone _ h) fun _ => hnone _
  | scalar hs | pointer hs | slice hs | map hs | channel hs | function hs | emptyArray hs
  | array hs =>
    exact blank_of_standsFor (TypeTable.standsFor_of_shape? hs) (by simp) (by simp) _

/-- The path crosses no embedded interface, and no embedded pointer except possibly a last one to a
type that is about to get its method. -/
inductive Clear (s : Surroundings) : Ty → List Nat → Prop where
  | own {ty : Ty} : ¬ s.table.StandsForInterface ty → Clear s ty []
  | embedded {i : Nat} {path : List Nat} {ty inner : Ty} :
      s.Embeds ty i ⟨false, inner⟩ → Clear s inner path → Clear s ty (i :: path)
  | pending {i : Nat} {ty inner : Ty} :
      s.Embeds ty i ⟨true, inner⟩ → s.IsPending inner → Clear s ty [i]

/-- Some embedded fields, each in the type that the one before it embeds. -/
inductive Leads (s : Surroundings) : Ty → List Nat → Prop where
  | nil (ty : Ty) : Leads s ty []
  | cons {i : Nat} {path : List Nat} {ty : Ty} {e : Embedding} :
      s.Embeds ty i e → Leads s e.type path → Leads s ty (i :: path)

theorem leads_of_finds (h : s.Finds n ty path) : s.Leads ty path := by
  induction h with
  | own => exact .nil _
  | asked => exact .nil _
  | promoted _ hd _ _ hrhs _ he _ _ ih =>
    have hs := (TypeTable.standsFor_rhs hd).2 (TypeTable.standsFor_of_underlying hrhs)
    exact .cons ⟨hs, he⟩ ih

theorem leads_of_candidate {member : Member} (h : s.Candidate ty path member) :
    s.Leads ty path := by
  induction h with
  | own => exact .nil _
  | @promoted ty inner i path member hi _ ih =>
    have hu : ∃ fields, s.table.underlying ty = some (.struct fields) := by
      unfold embeddedTypes at hi
      split at hi
      · exact ⟨_, ‹_›⟩
      · simp at hi
    obtain ⟨fields, hu⟩ := hu
    rw [embeddedTypes_eq hu, List.getElem?_map, Option.map_eq_some_iff] at hi
    obtain ⟨e, he, rfl⟩ := hi
    exact .cons ⟨TypeTable.standsFor_of_underlying hu, he⟩ ih

theorem runsSafely_nil {v : GoValue} (hb : s.Blank ty v) :
    s.RunsSafely [] ty v ↔ s.Clear ty [] := by
  constructor
  · rintro ⟨inner, receiver, hr, -⟩
    cases hr with
    | own _ hi => exact .own hi
    | held _ hi =>
      cases hb with
      | other _ hi' => exact absurd hi hi'
  · rintro (hi | _ | _)
    exact ⟨ty, some v, .own v hi, nofun⟩

/-- A field that is no pointer is crossed as it is. -/
theorem runsSafely_embedded {v : GoValue} (hs : s.table.StandsFor ty (.struct fields))
    (hv : (s.embeddedValues fields values)[i]? = some (⟨false, inner⟩, v)) :
    s.RunsSafely (i :: path) ty (.struct values) ↔ s.RunsSafely path inner v := by
  constructor
  · rintro ⟨deep, receiver, hr, hp⟩
    cases hr with
    | embedded hs' hv' hr =>
      cases hs.unique hs'
      cases hv.symm.trans hv'
      exact ⟨deep, receiver, hr, hp⟩
    | target hs' hv' | nilReceiver hs' hv' =>
      cases hs.unique hs'
      cases hv.symm.trans hv'
  · rintro ⟨deep, receiver, hr, hp⟩
    exact ⟨deep, receiver, .embedded hs hv hr, hp⟩

/-- A `nil` pointer is not crossed, but its type's own method can be called on it. -/
theorem runsSafely_nilPointer (hs : s.table.StandsFor ty (.struct fields))
    (hv : (s.embeddedValues fields values)[i]? = some (⟨true, inner⟩, .pointer none)) :
    s.RunsSafely (i :: path) ty (.struct values) ↔ path = [] ∧ s.IsPending inner := by
  constructor
  · rintro ⟨deep, receiver, hr, hp⟩
    cases hr with
    | embedded hs' hv' | target hs' hv' =>
      cases hs.unique hs'
      cases hv.symm.trans hv'
    | nilReceiver hs' hv' =>
      cases hs.unique hs'
      cases hv.symm.trans hv'
      exact ⟨rfl, hp rfl⟩
  · rintro ⟨rfl, hp⟩
    exact ⟨inner, none, .nilReceiver hs hv, fun _ => hp⟩

theorem clear_cons (he : s.Embeds ty i e) :
    s.Clear ty (i :: path) ↔
      if e.pointer then path = [] ∧ s.IsPending e.type else s.Clear e.type path := by
  obtain ⟨pointer, inner⟩ := e
  cases pointer with
  | true =>
    constructor
    · rintro (_ | ⟨he', -⟩ | ⟨he', hp⟩)
      · cases he.unique he'
      · cases he.unique he'
        exact ⟨rfl, hp⟩
    · rintro ⟨rfl, hp⟩
      exact .pending he hp
  | false =>
    constructor
    · rintro (_ | ⟨he', hc⟩ | ⟨he', hp⟩)
      · cases he.unique he'
        exact hc
      · cases he.unique he'
    · exact .embedded he

/-- On a blank value, a call gets along safely exactly on a clear path. -/
theorem runsSafely_iff_clear {v : GoValue} (hl : s.Leads ty path) (hb : s.Blank ty v) :
    s.RunsSafely path ty v ↔ s.Clear ty path := by
  induction hl generalizing v with
  | nil => exact runsSafely_nil hb
  | @cons i path ty e he hl ih =>
    rw [clear_cons he]
    obtain ⟨hs, hget⟩ := he
    cases hb with
    | interface hi =>
      obtain ⟨methods, embeds, hi⟩ := hi
      cases hs.unique hi
    | other _ _ hno => exact absurd hs (hno _)
    | struct hs' hlen hnil hemb =>
      cases hs.unique hs'
      obtain ⟨v, hv⟩ := exists_embeddedValue hlen hget
      have hmem := List.mem_of_getElem? hv
      obtain ⟨pointer, inner⟩ := e
      cases pointer with
      | true =>
        cases hnil inner v hmem
        exact runsSafely_nilPointer hs hv
      | false =>
        rw [runsSafely_embedded hs hv]
        exact ih (hemb inner v hmem)

/-- Only a struct with `Reset()` is reset by nothing but a call. -/
theorem struct_of_call {e e' : Operand} (h : s.resetWithin n e ty = .call e') :
    (∃ fields, s.table.underlying ty = some (.struct fields)) ∧ s.hasReset ty = true := by
  unfold resetWithin at h
  split at h
  · unfold resetUnresolved at h
    split at h <;> cases h
  · rename_i shape hu
    cases n with
    | zero => cases h
    | succ n =>
      cases shape with
      | struct fields =>
        refine ⟨⟨fields, hu⟩, ?_⟩
        simp only at h
        split at h
        · assumption
        · cases h
      | _ => cases h

/-- A struct is only reset by a call if it has `Reset()` itself or is found to promote one. Where
nothing is disputed, the embedded fields along which that is found are those that a selector follows.
On a blank value, so on a zero value too, the call gets along without a `nil` exactly if they make a
clear path. -/
theorem call_promoted {e e' : Operand} (h : s.resetWithin n e ty = .call e') :
    (s.Owns ty .reset ∨ ∃ i path, s.Finds (depthLimit + 1) ty (i :: path) ∧
      (s.NestsWithin (depthLimit + 1) ty → (∀ inner, s.Reaches ty inner → s.Undisputed inner) →
        s.SelectsAt ty (i :: path))) ∧
    ∀ path, s.Finds (depthLimit + 1) ty path ∨ s.SelectsAt ty path → ∀ v, s.Blank ty v →
      (s.RunsSafely path ty v ↔ s.Clear ty path) := by
  obtain ⟨⟨fields, hu⟩, hr⟩ := struct_of_call h
  have hi : s.isInterface ty = false := by simp [isInterface, hu]
  refine ⟨?_, fun path hp v hb => runsSafely_iff_clear ?_ hb⟩
  · rw [hasReset, ← providesWithin_of_not_interface hi] at hr
    obtain ⟨path, hf⟩ := exists_finds hr
    have hselects := fun hn hq => selectsAt_of_finds hf hn (Nat.le_refl _) (Nat.le_refl _) hq
    cases path with
    | nil =>
      cases hf with
      | own _ ho => exact .inl ho
      | asked hu' => cases hu.symm.trans hu'
    | cons i path => exact .inr ⟨i, path, hf, hselects⟩
  · obtain hf | hs := hp
    · exact leads_of_finds hf
    · exact leads_of_candidate hs.candidate

/-- A struct `Mount` embeds a pointer to `Base`, which is about to get its method. -/
def mount : Surroundings :=
  ⟨.ofDeclarations [Sample.declare "Base" (.struct []) [],
    Sample.declare "Mount"
      (.struct [⟨"Base", .pointer (.named (Sample.ref "Base")), true, none, "p"⟩]) []],
    [⟨"p", "Base"⟩]⟩

/-- The field of a zero `Mount` is `nil`. -/
theorem mount_blank : mount.Blank (.named (Sample.ref "Mount")) (.struct [.pointer none]) := by
  have hstruct : mount.table.StandsFor (.named (Sample.ref "Mount")) (.struct _) := ⟨2, rfl⟩
  have hpointer : mount.table.StandsFor (.pointer (.named (Sample.ref "Base")))
      (.pointer (.named (Sample.ref "Base"))) := ⟨1, rfl⟩
  have hzero : IsZero mount.table ⟨fun _ => 0, fun _ => default⟩ (.named (Sample.ref "Mount"))
      (.struct [.pointer none]) := by
    refine .struct rfl rfl fun i f v hf hv => ?_
    cases i with
    | zero =>
      cases hf
      cases hv
      exact .pointer rfl
    | succ i => cases hf
  refine blank_of_isZero hzero fun inner shape hholds hs => ?_
  cases hholds with
  | refl =>
    cases hstruct.unique hs
    rfl
  | embedded hs' hf _ hholds =>
    cases hstruct.unique hs'
    cases List.mem_singleton.1 hf
    cases hholds with
    | refl =>
      cases hpointer.unique hs
      rfl
    | embedded hs' => cases hpointer.unique hs'

theorem call_promoted_mount :
    mount.resetWithin 1 (.ofField "obj" "M") (.named (Sample.ref "Mount")) =
        .call (.ofField "obj" "M") ∧
      mount.RunsSafely [0] (.named (Sample.ref "Mount")) (.struct [.pointer none]) := by
  have hcall : mount.resetWithin 1 (.ofField "obj" "M") (.named (Sample.ref "Mount")) =
      .call (.ofField "obj" "M") := rfl
  have hstruct : mount.table.StandsFor (.named (Sample.ref "Mount")) (.struct _) := ⟨2, rfl⟩
  have hfinds : mount.Finds (depthLimit + 1) (.named (Sample.ref "Mount")) [0] := by
    refine .promoted rfl rfl (by decide) rfl rfl rfl rfl (.own rfl (.pending rfl rfl ?_)) ?_
    · decide
    · intro j e' hj he'
      cases j with
      | zero => exact absurd rfl hj
      | succ j => cases he'
  have hclear : mount.Clear (.named (Sample.ref "Mount")) [0] :=
    .pending ⟨hstruct, rfl⟩ ⟨_, rfl, by decide⟩
  exact ⟨hcall, ((call_promoted hcall).2 [0] (.inl hfinds) _ mount_blank).2 hclear⟩

/-- A struct `Holder` embeds an interface that asks for `Reset()`. -/
def holder : Surroundings :=
  ⟨.ofDeclarations [Sample.declare "Resettable" (.interface [⟨"Reset", [], [], false⟩] []) [],
    Sample.declare "Holder" (.struct [Sample.embed "Resettable"]) []], []⟩

theorem holder_owns_nothing (member : Member) :
    ¬ holder.Owns (.named (Sample.ref "Holder")) member := by
  refine (owns_nothing_iff (s := holder) rfl rfl).2 ⟨by simp [holder], rfl, ?_⟩ member
  intro fields hu
  cases hu
  rfl

theorem holder_selectsAt : holder.SelectsAt (.named (Sample.ref "Holder")) [0] := by
  refine selectsAt_cons.2 ⟨holder_owns_nothing, .named (Sample.ref "Resettable"), rfl, ?_, ?_⟩
  · have hasks : holder.asksResetWithin 1 [⟨"Reset", [], [], false⟩] [] = true := rfl
    refine selectsAt_nil.2 ⟨.demanded (demands_of_asksResetWithin rfl hasks), fun ho => ?_⟩
    generalize hm : Member.other = member at ho
    cases ho with
    | pending => cases hm
    | method _ hi => cases hi
    | field hu => cases hu
    | demanded h =>
      cases h with
      | own hu hmem =>
        cases hu
        cases List.mem_singleton.1 hmem
        cases hm
      | embedded hu hmem =>
        cases hu
        cases hmem
  · intro j inner path member hj hget
    cases j with
    | zero => exact absurd rfl hj
    | succ j => cases hget

/-- The call is not guarded, and it is a call on a `nil` interface where the `Holder` is zero. -/
theorem holder_unguarded :
    holder.resetWithin 1 (.ofField "obj" "H") (.named (Sample.ref "Holder")) =
        .call (.ofField "obj" "H") ∧
      ¬ holder.Owns (.named (Sample.ref "Holder")) .reset ∧
      holder.SelectsAt (.named (Sample.ref "Holder")) [0] ∧
      ¬ holder.Clear (.named (Sample.ref "Holder")) [0] ∧
      holder.Receives [0] (.named (Sample.ref "Holder")) (.struct [.interface none])
        (.error .nilDereference) := by
  have hstruct : holder.table.StandsFor (.named (Sample.ref "Holder")) (.struct _) := ⟨2, rfl⟩
  have hinterface : holder.table.StandsForInterface (.named (Sample.ref "Resettable")) :=
    ⟨_, _, 2, rfl⟩
  refine ⟨rfl, holder_owns_nothing _, holder_selectsAt, fun hc => ?_, ?_⟩
  · have he : holder.Embeds (.named (Sample.ref "Holder")) 0
        ⟨false, .named (Sample.ref "Resettable")⟩ := ⟨hstruct, rfl⟩
    cases (clear_cons he).1 hc with
    | own hi => exact hi hinterface
  · exact .embedded hstruct rfl (.nilInterface hinterface)

end Surroundings
end ResetMethods
