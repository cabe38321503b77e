import ResetMethods.Proofs.MethodSet.Selector
import ResetMethods.Proofs.Types.Chain

/-!
# ResetMethods.Proofs.MethodSet.Promotion

Which types are taken to have `Reset()`, against the rule for selectors.

* `NestsWithin`: embedding ends after some levels, and every type it reaches is a declared one.
* `provides`: what is found for an embedded type.
* `provides_iff`: one level of the search. Embedded fields are counted, and their depths are not
  compared.
* `Undisputed`: the count and the comparison of depths come to the same.
* `provides_iff_selects`: the search agrees with the rule, on a type and all that it embeds, exactly
  where nothing is disputed.
-/

namespace ResetMethods
namespace Surroundings

/-- Every type reached by embedding is declared in the table, and less than `n` steps lead to it. -/
inductive NestsWithin (s : Surroundings) : Nat → Ty → Prop where
  | struct {n : Nat} {ty : Ty} {d : Declaration} {fields : List (Field Ty)} :
      s.table.declaration ty = some d → s.table.underlying ty = some (.struct fields) →
      (∀ f ∈ fields, f.embedded = true → (s.promotedFrom f.type).isSome = true) →
      (∀ inner ∈ s.embeddedTypes ty, NestsWithin s n inner) → NestsWithin s (n + 1) ty
  | interface {n : Nat} {ty : Ty} {d : Declaration} {methods : List (MethodSpec Ty)}
      {embeds : List Ty} :
      s.table.declaration ty = some d →
      s.table.underlying ty = some (.interface methods embeds) →
      (∀ inner ∈ embeds, NestsWithin s n inner) → NestsWithin s (n + 1) ty
  | other {n : Nat} {ty shape : Ty} {d : Declaration} :
      s.table.declaration ty = some d → s.table.underlying ty = some shape →
      (∀ fields, shape ≠ .struct fields) → (∀ methods embeds, shape ≠ .interface methods embeds) →
      NestsWithin s (n + 1) ty

/-- What is found for an embedded type, looking through `fuel` levels. -/
def providesWithin (s : Surroundings) (fuel : Nat) (ty : Ty) : Bool :=
  match s.table.underlying ty with
  | some (.interface methods embeds) => s.asksResetWithin fuel methods embeds
  | _ => s.hasResetWithin fuel ty

/-- What is found for an embedded type. -/
def provides (s : Surroundings) (ty : Ty) : Bool := s.providesWithin (depthLimit + 1) ty

variable {s : Surroundings} {ty inner : Ty} {n m : Nat}

theorem NestsWithin.mono (h : s.NestsWithin n ty) (hm : n ≤ m) : s.NestsWithin m ty := by
  induction h generalizing m with
  | struct hd hu hp _ ih =>
    obtain ⟨m, rfl⟩ : ∃ k, m = k + 1 := ⟨m - 1, by omega⟩
    exact .struct hd hu hp fun inner hi => ih inner hi (by omega)
  | interface hd hu _ ih =>
    obtain ⟨m, rfl⟩ : ∃ k, m = k + 1 := ⟨m - 1, by omega⟩
    exact .interface hd hu fun inner hi => ih inner hi (by omega)
  | other hd hu hs hi =>
    obtain ⟨m, rfl⟩ : ∃ k, m = k + 1 := ⟨m - 1, by omega⟩
    exact .other hd hu hs hi

/-! ## Interfaces -/

theorem demands_of_asksResetWithin {methods : List (MethodSpec Ty)} {embeds : List Ty}
    (hu : s.table.underlying ty = some (.interface methods embeds))
    (h : s.asksResetWithin n methods embeds = true) : s.table.Demands ty .reset := by
  induction n generalizing ty methods embeds with
  | zero => cases h
  | succ n ih =>
    rw [asksResetWithin, Bool.or_eq_true, List.any_eq_true, List.any_eq_true] at h
    obtain ⟨m, hm, hr⟩ | ⟨inner, hi, hr⟩ := h
    · simp only [MethodSpec.isReset, Bool.and_eq_true, beq_iff_eq] at hr
      have hd := TypeTable.Demands.own hu hm hr.1
      rwa [Member.ofSignature, if_pos hr.2] at hd
    · split at hr
      · exact .embedded hu hi (ih ‹_› hr)
      · cases hr

theorem asksResetWithin_of_demands (hn : s.NestsWithin n ty) (h : s.table.Demands ty .reset)
    {methods : List (MethodSpec Ty)} {embeds : List Ty}
    (hu : s.table.underlying ty = some (.interface methods embeds)) :
    s.asksResetWithin n methods embeds = true := by
  induction hn generalizing methods embeds with
  | struct _ hu' => rw [hu] at hu'; cases hu'
  | other _ hu' _ hi => rw [hu] at hu'; cases hu'; exact absurd rfl (hi _ _)
  | @interface n ty d _ _ _ hu' _ ih =>
    rw [hu] at hu'; cases hu'
    rw [asksResetWithin, Bool.or_eq_true, List.any_eq_true, List.any_eq_true]
    generalize hm : Member.reset = member at h
    cases h with
    | @own _ _ _ m hu' hm' hname =>
      rw [hu] at hu'; cases hu'
      have hr := Member.ofSignature_eq_reset.1 hm.symm
      exact .inl ⟨m, hm', by simp [MethodSpec.isReset, hname, hr]⟩
    | @embedded _ e _ _ _ hu' he hd =>
      rw [hu] at hu'; cases hu'
      subst hm
      obtain ⟨methods, embeds, hue⟩ := hd.exists_interface
      refine .inr ⟨e, he, ?_⟩
      rw [hue]
      exact ih e he hd hue

/-- The search through an interface finds what the interface asks for. -/
theorem asksResetWithin_iff (hn : s.NestsWithin n ty) {methods : List (MethodSpec Ty)}
    {embeds : List Ty} (hu : s.table.underlying ty = some (.interface methods embeds)) :
    s.asksResetWithin n methods embeds = true ↔ s.table.Demands ty .reset :=
  ⟨demands_of_asksResetWithin hu, fun h => asksResetWithin_of_demands hn h hu⟩

/-! ## One level of the search -/

/-- The embedded fields that are counted. -/
theorem length_filter_embedded (fields : List (Field Ty)) (p : Ty → Bool) :
    (fields.filter fun f => f.embedded &&
        match s.promotedFrom f.type with
        | none => false
        | some inner => p inner).length =
      (((fields.filter (·.embedded)).filterMap fun f => s.promotedFrom f.type).filter p).length := by
  induction fields with
  | nil => rfl
  | cons f fields ih =>
    cases he : f.embedded with
    | false => simp [he, ih]
    | true =>
      cases hp : s.promotedFrom f.type with
      | none => simp [he, hp, ih]
      | some inner =>
        cases hi : p inner with
        | false => simp [he, hp, hi, ih]
        | true => simp [he, hp, hi, ih]

theorem not_demands {member : Member} (hi : s.isInterface ty = false) :
    ¬ s.table.Demands ty member := by
  intro h
  obtain ⟨methods, embeds, hu⟩ := h.exists_interface
  simp [isInterface, hu] at hi

theorem owns_reset_iff {d : Declaration} (hd : s.table.declaration ty = some d)
    (hi : s.isInterface ty = false) :
    s.Owns ty .reset ↔ d.key ∈ s.pending ∨ d.methods.any (·.isReset) = true := by
  rw [List.any_eq_true]
  constructor
  · intro h
    generalize hm : Member.reset = member at h
    cases h with
    | pending hd' _ hp => rw [hd] at hd'; cases hd'; exact .inl hp
    | @method _ m hd' _ hm' hname =>
      rw [hd] at hd'; cases hd'
      have hr := Member.ofSignature_eq_reset.1 hm.symm
      exact .inr ⟨m, hm', by simp [Method.isReset, hname, hr]⟩
    | field => cases hm
    | demanded h => exact absurd h (not_demands hi)
  · rintro (hp | ⟨m, hm, hr⟩)
    · exact .pending hd hi hp
    · simp only [Method.isReset, Bool.and_eq_true, beq_iff_eq] at hr
      rw [← Member.ofSignature_eq_reset.2 hr.2]
      exact .method hd hi hm hr.1

theorem owns_nothing_iff {d : Declaration} (hd : s.table.declaration ty = some d)
    (hi : s.isInterface ty = false) :
    (∀ member, ¬ s.Owns ty member) ↔
      d.key ∉ s.pending ∧ d.methods.any (·.name == "Reset") = false ∧
        ∀ fields, s.table.underlying ty = some (.struct fields) →
          fields.any (·.name == "Reset") = false := by
  simp only [List.any_eq_false, beq_iff_eq]
  constructor
  · intro h
    refine ⟨fun hp => h _ (.pending hd hi hp), fun m hm hname => h _ (.method hd hi hm hname), ?_⟩
    intro fields hu f hf hname
    exact h _ (.field hu hf hname)
  · rintro ⟨hp, hm, hf⟩ member h
    cases h with
    | pending hd' _ hp' => rw [hd] at hd'; cases hd'; exact hp hp'
    | method hd' _ hm' hname => rw [hd] at hd'; cases hd'; exact hm _ hm' hname
    | field hu hf' hname => exact hf _ hu _ hf' hname
    | demanded h => exact not_demands hi h

/-- A declared type that is no interface has `Reset()` if it has one of its own, or if it has
nothing of that name and exactly one embedded field provides one. -/
theorem hasResetWithin_iff {d : Declaration} {shape : Ty} (hd : s.table.declaration ty = some d)
    (hu : s.table.underlying ty = some shape) (hi : s.isInterface ty = false) :
    s.hasResetWithin (n + 1) ty = true ↔
      s.Owns ty .reset ∨ (∀ member, ¬ s.Owns ty member) ∧
        ((s.embeddedTypes ty).filter (s.providesWithin n)).length = 1 := by
  have hown := owns_reset_iff hd hi
  have hnothing := owns_nothing_iff hd hi
  rw [hasResetWithin, hd]
  simp only [TypeTable.underlying_rhs hd hu]
  by_cases hr : s.Owns ty .reset
  · have hc := hown.1 hr
    simp only [hr, true_or, iff_true]
    by_cases hp : s.pending.contains d.key = true
    · rw [if_pos hp]
    · rw [if_neg hp, if_pos (hc.resolve_left (by simpa using hp))]
  · have hp : d.key ∉ s.pending := fun hp => hr (hown.2 (.inl hp))
    have hm : ¬ d.methods.any (·.isReset) = true := fun hm => hr (hown.2 (.inr hm))
    rw [if_neg (by simpa using hp), if_neg hm]
    simp only [hr, false_or, hnothing, hp, not_false_eq_true, true_and]
    cases hn : d.methods.any (·.name == "Reset") with
    | true => simp
    | false =>
      cases shape with
      | struct fields =>
        simp only [hu, Option.some.injEq, Ty.struct.injEq, forall_eq', true_and, Bool.false_eq_true,
          if_false, embeddedTypes]
        cases hf : fields.any (·.name == "Reset") with
        | true => simp only [if_true, Bool.false_eq_true, Bool.true_eq_false, false_and]
        | false =>
          simp only [Bool.false_eq_true, if_false, true_and, beq_iff_eq]
          rw [← length_filter_embedded]
          rfl
      | _ => simp [hu, embeddedTypes]

theorem providesWithin_interface {methods : List (MethodSpec Ty)} {embeds : List Ty}
    (hu : s.table.underlying ty = some (.interface methods embeds)) :
    s.providesWithin n ty = s.asksResetWithin n methods embeds := by
  rw [providesWithin, hu]

theorem providesWithin_of_not_interface (hi : s.isInterface ty = false) :
    s.providesWithin n ty = s.hasResetWithin n ty := by
  unfold providesWithin
  split
  · simp [isInterface, *] at hi
  · rfl

/-- A type that is no interface, one level on. -/
theorem NestsWithin.not_interface (h : s.NestsWithin n ty) (hi : s.isInterface ty = false) :
    ∃ k d shape, n = k + 1 ∧ s.table.declaration ty = some d ∧
      s.table.underlying ty = some shape ∧ ∀ inner ∈ s.embeddedTypes ty, s.NestsWithin k inner := by
  cases h with
  | struct hd hu _ hn => exact ⟨_, _, _, rfl, hd, hu, hn⟩
  | interface hd hu => simp [isInterface, hu] at hi
  | other hd hu hs =>
    refine ⟨_, _, _, rfl, hd, hu, ?_⟩
    intro inner hm
    unfold embeddedTypes at hm
    split at hm
    · rename_i fields hu'
      rw [hu] at hu'; cases hu'
      exact absurd rfl (hs fields)
    · cases hm

/-- Enough levels are as good as more. -/
theorem providesWithin_eq (h : s.NestsWithin n ty) (hm : n ≤ m) :
    s.providesWithin m ty = s.providesWithin n ty := by
  induction n generalizing ty m with
  | zero => cases h
  | succ n ih =>
    rw [Bool.eq_iff_iff]
    cases hi : s.isInterface ty with
    | true =>
      unfold isInterface at hi
      split at hi
      · rename_i methods embeds hu
        rw [providesWithin_interface hu, providesWithin_interface hu, asksResetWithin_iff h hu,
          asksResetWithin_iff (h.mono hm) hu]
      · cases hi
    | false =>
      obtain ⟨m, rfl⟩ : ∃ k, m = k + 1 := ⟨m - 1, by omega⟩
      obtain ⟨k, d, shape, hk, hd, hu, hn⟩ := h.not_interface hi
      obtain rfl : n = k := by omega
      have hf : (s.embeddedTypes ty).filter (s.providesWithin m) =
          (s.embeddedTypes ty).filter (s.providesWithin n) := by
        apply List.filter_congr
        intro inner hin
        exact ih (hn inner hin) (by omega)
      rw [providesWithin_of_not_interface hi, providesWithin_of_not_interface hi,
        hasResetWithin_iff hd hu hi, hasResetWithin_iff hd hu hi, hf]

theorem provides_of_not_interface (hi : s.isInterface ty = false) :
    s.provides ty = s.hasReset ty :=
  providesWithin_of_not_interface hi

/-- What is found for a type, by what is found for the types that it embeds. -/
theorem provides_iff (h : s.NestsWithin n ty) (hn : n ≤ depthLimit + 1)
    (hi : s.isInterface ty = false) :
    s.provides ty = true ↔ s.Owns ty .reset ∨ (∀ member, ¬ s.Owns ty member) ∧
      ((s.embeddedTypes ty).filter s.provides).length = 1 := by
  obtain ⟨k, d, shape, rfl, hd, hu, hk⟩ := h.not_interface hi
  have hf : (s.embeddedTypes ty).filter s.provides =
      (s.embeddedTypes ty).filter (s.providesWithin k) := by
    apply List.filter_congr
    intro inner hin
    exact providesWithin_eq (hk inner hin) (by omega)
  rw [provides, providesWithin_eq h hn, providesWithin_of_not_interface hi,
    hasResetWithin_iff hd hu hi, hf]

/-! ## Counting against comparing -/

/-- Exactly one element passes a test. -/
theorem length_filter_eq_one {l : List Ty} {p : Ty → Bool} :
    (l.filter p).length = 1 ↔
      ∃ (i : Nat) (a : Ty), l[i]? = some a ∧ p a = true ∧
        ∀ (j : Nat) (b : Ty), j ≠ i → l[j]? = some b → p b = false := by
  induction l with
  | nil => simp
  | cons x l ih =>
    cases hx : p x with
    | true =>
      rw [List.filter_cons_of_pos hx, List.length_cons, Nat.add_eq_right, List.length_eq_zero_iff,
        List.filter_eq_nil_iff]
      constructor
      · intro h
        refine ⟨0, x, rfl, hx, fun j b hj hb => ?_⟩
        obtain ⟨j, rfl⟩ : ∃ k, j = k + 1 := ⟨j - 1, by omega⟩
        exact Bool.eq_false_iff.2 (h b (List.mem_of_getElem? hb))
      · rintro ⟨i, a, -, -, h⟩ b hb hpb
        obtain ⟨j, hj⟩ := List.getElem?_of_mem hb
        cases i with
        | zero => simp [h (j + 1) b (by omega) hj] at hpb
        | succ i => simp [h 0 x (by omega) rfl] at hx
    | false =>
      rw [List.filter_cons_of_neg (by simp [hx]), ih]
      constructor
      · rintro ⟨i, a, ha, hpa, h⟩
        refine ⟨i + 1, a, ha, hpa, fun j b hj hb => ?_⟩
        cases j with
        | zero => cases hb; exact hx
        | succ j => exact h j b (by omega) hb
      · rintro ⟨i, a, ha, hpa, h⟩
        cases i with
        | zero => cases ha; rw [hx] at hpa; cases hpa
        | succ i => exact ⟨i, a, ha, hpa, fun j b hj hb => h (j + 1) b (by omega) hb⟩

/-- No other embedded field selects a `Reset()`, at whatever depth. -/
def NoOther (s : Surroundings) (ty : Ty) (i : Nat) : Prop :=
  ∀ {j : Nat} {inner : Ty}, j ≠ i → (s.embeddedTypes ty)[j]? = some inner → ¬ s.Selects inner

/-- To count the embedded fields that select a `Reset()` comes to the same as comparing depths. -/
structure Undisputed (s : Surroundings) (ty : Ty) : Prop where
  /-- What has `Reset()` has nothing else of that name beside it. -/
  own : s.Owns ty .reset → ¬ s.Owns ty .other
  /-- A `Reset()` in an embedded field is the only one to be found at any depth exactly if it is the
  shallowest thing of that name and the only one at its depth. -/
  promoted : (∀ member, ¬ s.Owns ty member) → ∀ {i : Nat} {inner : Ty} {path : List Nat},
    (s.embeddedTypes ty)[i]? = some inner → s.SelectsAt inner path →
    (s.NoOther ty i ↔ s.NoRival ty i path.length)

theorem embeddedTypes_of_interface (hi : s.isInterface ty = true) : s.embeddedTypes ty = [] := by
  unfold isInterface at hi
  split at hi
  · simp [embeddedTypes, *]
  · cases hi

theorem agrees_iff_of_interface (h : s.NestsWithin n ty) (hn : n ≤ depthLimit + 1)
    (hi : s.isInterface ty = true) :
    (s.provides ty = true ↔ s.Selects ty) ↔ s.Undisputed ty := by
  obtain ⟨methods, embeds, hu⟩ :
      ∃ methods embeds, s.table.underlying ty = some (.interface methods embeds) := by
    unfold isInterface at hi
    split at hi
    · exact ⟨_, _, ‹_›⟩
    · cases hi
  have he := embeddedTypes_of_interface hi
  have hp : s.provides ty = true ↔ s.Owns ty .reset := by
    rw [provides, providesWithin_eq h hn, providesWithin_interface hu, asksResetWithin_iff h hu]
    constructor
    · exact .demanded
    · intro ho
      generalize hm : Member.reset = member at ho
      cases ho with
      | demanded hd => exact hd
      | pending _ hi' | method _ hi' => rw [hi] at hi'; cases hi'
      | field => cases hm
  rw [hp, selects_iff]
  constructor
  · intro ha
    refine ⟨fun hr ho => ?_, fun _ {i inner path} hin _ => by simp [he] at hin⟩
    obtain ⟨-, hno⟩ | ⟨hnone, -⟩ := ha.1 hr
    · exact hno ho
    · exact hnone _ hr
  · intro hq
    constructor
    · exact fun hr => .inl ⟨hr, hq.own hr⟩
    · rintro (⟨hr, -⟩ | ⟨-, i, inner, path, hin, -⟩)
      · exact hr
      · simp [he] at hin

theorem length_filter_provides
    (hin : ∀ inner ∈ s.embeddedTypes ty, (s.provides inner = true ↔ s.Selects inner)) :
    ((s.embeddedTypes ty).filter s.provides).length = 1 ↔
      ∃ i inner, (s.embeddedTypes ty)[i]? = some inner ∧ s.Selects inner ∧ s.NoOther ty i := by
  rw [length_filter_eq_one]
  constructor
  · rintro ⟨i, inner, hget, hp, ho⟩
    refine ⟨i, inner, hget, (hin _ (List.mem_of_getElem? hget)).1 hp, ?_⟩
    intro j inner' hj hget' hs
    have hp' := (hin _ (List.mem_of_getElem? hget')).2 hs
    rw [ho j inner' hj hget'] at hp'
    cases hp'
  · rintro ⟨i, inner, hget, hs, ho⟩
    refine ⟨i, inner, hget, (hin _ (List.mem_of_getElem? hget)).2 hs, ?_⟩
    intro j inner' hj hget'
    rw [Bool.eq_false_iff]
    intro hp'
    exact ho hj hget' ((hin _ (List.mem_of_getElem? hget')).1 hp')

/-- Where the search agrees with the rule on the embedded types, it does on the type itself exactly
if nothing is disputed there. -/
theorem agrees_iff (h : s.NestsWithin n ty) (hn : n ≤ depthLimit + 1)
    (hi : s.isInterface ty = false)
    (hin : ∀ inner ∈ s.embeddedTypes ty, (s.provides inner = true ↔ s.Selects inner)) :
    (s.provides ty = true ↔ s.Selects ty) ↔ s.Undisputed ty := by
  rw [provides_iff h hn hi, selects_iff]
  by_cases hown : ∃ member, s.Owns ty member
  · have hnone : ¬ ∀ member, ¬ s.Owns ty member := by simpa using hown
    simp only [hnone, false_and, or_false]
    constructor
    · intro ha
      exact ⟨fun hr => (ha.1 hr).2, fun hn => absurd hn hnone⟩
    · intro hq
      exact ⟨fun hr => ⟨hr, hq.own hr⟩, fun hr => hr.1⟩
  · have hnone : ∀ member, ¬ s.Owns ty member := by simpa using hown
    have hcount := length_filter_provides hin
    simp only [hnone, not_false_eq_true, implies_true, true_and, false_and, false_or, hcount]
    constructor
    · intro ha
      refine ⟨fun hr => absurd hr (hnone _), fun _ {i inner path} hget hs => ?_⟩
      constructor
      · -- The only field that selects anything is the one that the rule chooses.
        intro ho
        obtain ⟨j, inner', path', hget', hs', hr⟩ := ha.1 ⟨i, inner, hget, ⟨path, hs⟩, ho⟩
        by_cases hj : j = i
        · subst hj
          rw [hget] at hget'; cases hget'
          obtain rfl := hs.unique hs'
          exact hr
        · exact absurd ⟨path', hs'⟩ (ho hj hget')
      · intro hr
        obtain ⟨j, inner', hget', hs', ho⟩ := ha.2 ⟨i, inner, path, hget, hs, hr⟩
        by_cases hj : i = j
        · subst hj
          exact ho
        · exact absurd ⟨path, hs⟩ (ho hj hget)
    · intro hq
      constructor
      · rintro ⟨i, inner, hget, ⟨path, hs⟩, ho⟩
        exact ⟨i, inner, path, hget, hs, (hq.promoted hnone hget hs).1 ho⟩
      · rintro ⟨i, inner, path, hget, hs, hr⟩
        exact ⟨i, inner, hget, ⟨path, hs⟩, (hq.promoted hnone hget hs).2 hr⟩

/-- A type and whatever it embeds, at any depth. -/
def Reaches (s : Surroundings) : Ty → Ty → Prop :=
  Relation.ReflTransGen fun outer inner => inner ∈ s.embeddedTypes outer

theorem forall_reaches_iff {p : Ty → Prop} : (∀ inner, s.Reaches ty inner → p inner) ↔
    p ty ∧ ∀ outer ∈ s.embeddedTypes ty, ∀ inner, s.Reaches outer inner → p inner := by
  constructor
  · intro hp
    exact ⟨hp ty .refl, fun outer hm inner hr => hp inner (.head hm hr)⟩
  · rintro ⟨hp, hall⟩ inner hr
    obtain rfl | ⟨outer, hm, hr⟩ := Relation.ReflTransGen.cases_head_iff.1 hr
    · exact hp
    · exact hall outer hm inner hr

theorem agrees_throughout_iff (h : s.NestsWithin n ty) (hn : n ≤ depthLimit + 1) :
    (∀ inner, s.Reaches ty inner → (s.provides inner = true ↔ s.Selects inner)) ↔
      ∀ inner, s.Reaches ty inner → s.Undisputed inner := by
  induction n generalizing ty with
  | zero => cases h
  | succ n ih =>
    rw [forall_reaches_iff, forall_reaches_iff]
    cases hi : s.isInterface ty with
    | true =>
      simp only [embeddedTypes_of_interface hi, List.not_mem_nil, false_implies, implies_true,
        and_true]
      exact agrees_iff_of_interface h hn hi
    | false =>
      obtain ⟨k, d, shape, hk, -, -, hin⟩ := h.not_interface hi
      obtain rfl : n = k := by omega
      have hbelow : (∀ outer ∈ s.embeddedTypes ty, ∀ inner, s.Reaches outer inner →
          (s.provides inner = true ↔ s.Selects inner)) ↔
          ∀ outer ∈ s.embeddedTypes ty, ∀ inner, s.Reaches outer inner → s.Undisputed inner :=
        forall₂_congr fun outer hm => ih (hin outer hm) (by omega)
      rw [← hbelow]
      refine and_congr_left fun hall => ?_
      exact agrees_iff h hn hi fun outer hm => hall outer hm outer .refl

/-- The search finds `Reset()` on a type, and on every type below it, exactly where a selector for
it denotes that method, if and only if nothing is disputed on the type and below it. -/
theorem hasReset_iff_selects (h : s.NestsWithin (depthLimit + 1) ty)
    (hi : s.isInterface ty = false) :
    ((s.hasReset ty = true ↔ s.Selects ty) ∧
        ∀ outer ∈ s.embeddedTypes ty, ∀ inner, s.Reaches outer inner →
          (s.provides inner = true ↔ s.Selects inner)) ↔
      ∀ inner, s.Reaches ty inner → s.Undisputed inner := by
  rw [← agrees_throughout_iff h (Nat.le_refl _), ← provides_of_not_interface hi,
    forall_reaches_iff]

/-! ## A deeper method beside a shallow one -/

/-- A struct `S` embeds `A`, which declares `Reset()`, and `B`, which embeds a type that does. -/
def shadowing : Surroundings :=
  ⟨.ofDeclarations [Sample.declare "A" (.struct []) [Sample.reset],
    Sample.declare "B" (.struct [Sample.embed "C"]) [],
    Sample.declare "C" (.struct []) [Sample.reset],
    Sample.declare "S" (.struct [Sample.embed "A", Sample.embed "B"]) []], []⟩

theorem shadowing_nestsWithin :
    shadowing.NestsWithin (depthLimit + 1) (.named (Sample.ref "S")) := by
  have hA : shadowing.NestsWithin 2 (.named (Sample.ref "A")) :=
    .struct rfl rfl (fun _ => nofun) fun _ => nofun
  have hC : shadowing.NestsWithin 1 (.named (Sample.ref "C")) :=
    .struct rfl rfl (fun _ => nofun) fun _ => nofun
  have hB : shadowing.NestsWithin 2 (.named (Sample.ref "B")) := by
    refine .struct rfl rfl ?_ (List.forall_mem_cons.2 ⟨hC, fun _ => nofun⟩)
    exact List.forall_mem_cons.2 ⟨fun _ => rfl, fun _ => nofun⟩
  have hin : ∀ inner ∈ shadowing.embeddedTypes (.named (Sample.ref "S")),
      shadowing.NestsWithin 2 inner :=
    List.forall_mem_cons.2 ⟨hA, List.forall_mem_cons.2 ⟨hB, fun _ => nofun⟩⟩
  have hS : shadowing.NestsWithin 3 (.named (Sample.ref "S")) := by
    refine .struct rfl rfl ?_ hin
    exact List.forall_mem_cons.2
      ⟨fun _ => rfl, List.forall_mem_cons.2 ⟨fun _ => rfl, fun _ => nofun⟩⟩
  exact hS.mono (by decide)

theorem hasReset_iff_selects_shadowing :
    ((shadowing.hasReset (.named (Sample.ref "S")) = true ↔
          shadowing.Selects (.named (Sample.ref "S"))) ∧
        ∀ outer ∈ shadowing.embeddedTypes (.named (Sample.ref "S")), ∀ inner,
          shadowing.Reaches outer inner →
          (shadowing.provides inner = true ↔ shadowing.Selects inner)) ↔
      ∀ inner, shadowing.Reaches (.named (Sample.ref "S")) inner → shadowing.Undisputed inner :=
  hasReset_iff_selects shadowing_nestsWithin rfl

theorem shadowing_owns_nothing {name : String} (hn : name = "S" ∨ name = "B") (member : Member) :
    ¬ shadowing.Owns (.named (Sample.ref name)) member := by
  obtain rfl | rfl := hn
  · refine (owns_nothing_iff (s := shadowing) rfl rfl).2 ⟨by simp [shadowing], rfl, ?_⟩ member
    intro fields hu
    cases hu
    rfl
  · refine (owns_nothing_iff (s := shadowing) rfl rfl).2 ⟨by simp [shadowing], rfl, ?_⟩ member
    intro fields hu
    cases hu
    rfl

/-- The shallow `Reset()` is the one that a selector denotes, and it is not found. -/
theorem shadowing_missed :
    shadowing.NestsWithin (depthLimit + 1) (.named (Sample.ref "S")) ∧
      shadowing.isInterface (.named (Sample.ref "S")) = false ∧
      shadowing.Selects (.named (Sample.ref "S")) ∧
      shadowing.hasReset (.named (Sample.ref "S")) = false := by
  refine ⟨shadowing_nestsWithin, rfl, ⟨[0], selectsAt_cons.2 ?_⟩, by decide +kernel⟩
  refine ⟨shadowing_owns_nothing (.inl rfl), .named (Sample.ref "A"), rfl, selectsAt_nil.2 ?_, ?_⟩
  · constructor
    · exact (owns_reset_iff (s := shadowing) rfl rfl).2 (.inr rfl)
    · intro ho
      generalize hm : Member.other = member at ho
      cases ho with
      | pending => cases hm
      | method hd _ hmem => cases hd; cases List.mem_singleton.1 hmem; cases hm
      | field hu hf => cases hu; cases hf
      | demanded h => exact not_demands rfl h
  · intro j inner path member hj hget hc
    obtain rfl | ⟨j, rfl⟩ : j = 1 ∨ ∃ k, j = k + 2 := by
      by_cases h : j = 1
      · exact .inl h
      · exact .inr ⟨j - 2, by omega⟩
    · cases hget
      cases hc with
      | own ho => exact absurd ho (shadowing_owns_nothing (.inr rfl) _)
      | promoted => exact Nat.succ_pos _
    · cases hget

end Surroundings
end ResetMethods
