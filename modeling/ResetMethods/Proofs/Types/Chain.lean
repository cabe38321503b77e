import ResetMethods.Proofs.Types.Walk

/-!
# ResetMethods.Proofs.Types.Chain

Tables of given declarations, and the longest chain that a walk still follows.

* `ofDeclarations`: a table in which each of some declarations is found (`get?_ofDeclarations`).
* `Sample`: declarations of one package.
* `link`: a chain of aliases that ends at `int`.
* `underlyingWithin_link`, `unaliasWithin_link`: a walk along as many aliases as it looks at finds
  nothing.
* `shapeWithin_link`: one type more is enough.
-/

namespace ResetMethods

namespace Sample

/-- A reference to a type of the sample package. -/
def ref (name : String) : Named Ty := ⟨some ⟨"p", "p"⟩, name, []⟩

/-- A defined type of the sample package. -/
def declare (name : String) (rhs : Ty) (methods : List Method) : Declaration :=
  ⟨some ⟨"p", "p"⟩, name, [], false, rhs, methods⟩

def reset : Method := ⟨"Reset", true, ⟨[], [], false⟩⟩

def field (name : String) (type : Ty) : Field Ty := ⟨name, type, false, none, "p"⟩

def embed (name : String) : Field Ty := ⟨name, .named (ref name), true, none, "p"⟩

end Sample

namespace TypeTable

def ofDeclarations (ds : List Declaration) : TypeTable := ds.foldl declare .empty

theorem get?_foldl_declare {ds : List Declaration} {t : TypeTable} {k : TypeKey}
    (h : ∀ d ∈ ds, d.key ≠ k) : (ds.foldl declare t).get? k = t.get? k := by
  induction ds generalizing t with
  | nil => rfl
  | cons e ds ih =>
    obtain ⟨he, h⟩ := List.forall_mem_cons.1 h
    rw [List.foldl_cons, ih h, declare, Dict.get?_insert, if_neg he.symm]

/-- Declarations with different keys are all found. -/
theorem get?_ofDeclarations {ds : List Declaration}
    (hd : ds.Pairwise fun d e => d.key ≠ e.key) {d : Declaration} (h : d ∈ ds) :
    (ofDeclarations ds).get? d.key = some d := by
  obtain ⟨before, after, rfl⟩ := List.append_of_mem h
  have hafter : ∀ e ∈ after, e.key ≠ d.key := by
    intro e he
    have hd := (List.pairwise_cons.1 (List.pairwise_append.1 hd).2.1).1
    exact (hd e he).symm
  rw [ofDeclarations, List.foldl_append, List.foldl_cons, get?_foldl_declare hafter, declare,
    Dict.get?_insert, if_pos rfl]

theorem lookup_ofDeclarations {ds : List Declaration}
    (hd : ds.Pairwise fun d e => d.key ≠ e.key) {d : Declaration} (h : d ∈ ds) {n : Named Ty}
    (hn : n.key = d.key) : (ofDeclarations ds).lookup n = some d := by
  rw [lookup, hn]
  exact get?_ofDeclarations hd h

/-! ## A chain of aliases -/

/-- The name of an alias: the letter `A`, once more than the place of the alias in its chain. -/
def linkName (i : Nat) : Named Ty :=
  ⟨some ⟨"p", "p"⟩, String.ofList (List.replicate (i + 1) 'A'), []⟩

/-- What stands at a place of a chain of `length` aliases. Behind them is `int`. -/
def link (length i : Nat) : Ty :=
  if i < length then .named (linkName i) else .basic .int

/-- The alias at a place of a chain. -/
def linkDeclaration (length i : Nat) : Declaration where
  package := (linkName i).package
  name := (linkName i).name
  typeParams := []
  isAlias := true
  rhs := link length (i + 1)
  methods := []

theorem linkDeclaration_key (length i : Nat) :
    (linkDeclaration length i).key = (linkName i).key := rfl

theorem linkName_key_inj {i j : Nat} (h : (linkName i).key = (linkName j).key) : i = j := by
  simp only [linkName, Named.key, TypeKey.mk.injEq] at h
  have h := congrArg List.length (String.ofList_inj.1 h.2)
  simp only [List.length_replicate] at h
  omega

def linkDeclarations (length : Nat) : List Declaration :=
  (List.range length).map (linkDeclaration length)

theorem linkDeclarations_pairwise (length : Nat) :
    (linkDeclarations length).Pairwise fun d e => d.key ≠ e.key := by
  refine List.pairwise_map.2 (List.Pairwise.imp ?_ List.nodup_range)
  intro i j hij h
  exact hij (linkName_key_inj h)

/-- All aliases of a chain are in the table. -/
def HasLinks (t : TypeTable) (length : Nat) : Prop :=
  ∀ i, i < length → t.lookup (linkName i) = some (linkDeclaration length i)

variable {t : TypeTable} {length : Nat}

theorem underlyingWithin_link (h : t.HasLinks length) {fuel i : Nat} (hi : i + fuel ≤ length) :
    t.underlyingWithin fuel (link length i) = none := by
  induction fuel generalizing i with
  | zero => rfl
  | succ fuel ih =>
    have hl : i < length := by omega
    rw [link, if_pos hl, underlyingWithin, h i hl]
    exact ih (by omega)

theorem unaliasWithin_link (h : t.HasLinks length) {fuel i : Nat} (hi : i + fuel ≤ length) :
    t.unaliasWithin fuel (link length i) = none := by
  induction fuel generalizing i with
  | zero => rfl
  | succ fuel ih =>
    have hl : i < length := by omega
    rw [link, if_pos hl, unaliasWithin, h i hl]
    exact ih (by omega)

theorem shapeWithin_link (h : t.HasLinks length) {fuel i : Nat} (hi : i + fuel = length) :
    t.shapeWithin (fuel + 1) (link length i) = some (.basic .int) := by
  induction fuel generalizing i with
  | zero => rw [link, if_neg (by omega)]; rfl
  | succ fuel ih =>
    have hl : i < length := by omega
    rw [link, if_pos hl, shapeWithin, h i hl]
    exact ih (by omega)

end TypeTable
end ResetMethods
