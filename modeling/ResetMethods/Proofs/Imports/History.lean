import ResetMethods.Proofs.Imports.Block

/-!
# ResetMethods.Proofs.Imports.History

Any sequence of calls on an alias table.

* `AliasTable.answer`: the alias that a call gives a package.
* `AliasTable.Chooses`: which alias a package gets that has none.
* `AliasTable.Lists`: the lines of an import block.
* `bindEach_history`: after any calls the two directions of the table are inverse to each other and
  no reserved name is bound; a path keeps its alias; the next call gives the alias that the path
  has, or chooses a free one of least number; and the block lists each path once, in the order of
  the aliases.
-/

namespace ResetMethods

open Text (candidate fresh)

namespace AliasTable

/-- The alias that a call gives the package. -/
def answer (t : AliasTable) (package : PackageRef) (known : Bool) : Option String :=
  (t.bind package known).alias? package.path

/-- Neither reserved nor bound. -/
def IsFree (t : AliasTable) (name : String) : Prop :=
  name ∉ t.reserved ∧ t.path? name = none

/-- The alias of a package that has none yet: its name if that is free, and else the name with the
least number behind it that makes it free. -/
inductive Chooses (t : AliasTable) (name : String) : String → Prop where
  | own : t.IsFree name → Chooses t name name
  | numbered {k : Nat} : ¬ t.IsFree name → 0 < k → t.IsFree (name ++ toString k) →
      (∀ j, 0 < j → j < k → ¬ t.IsFree (name ++ toString j)) →
      Chooses t name (name ++ toString k)

/-- The bindings that a block lists, line by line. -/
structure Lists (t : AliasTable) (bs : List AliasBinding) : Prop where
  text : t.render =
    if bs.isEmpty then "" else "import (\n" ++ String.join (bs.map (·.line)) ++ ")\n"
  line : ∀ b ∈ bs, b.line =
    "\t" ++ (if b.isBare then "" else b.aliasName ++ " ") ++ "\"" ++ b.path ++ "\"\n"
  bound : ∀ b ∈ bs, t.path? b.aliasName = some b.path
  once : ∀ path, (bs.map (·.path)).count path = if (t.alias? path).isSome then 1 else 0
  sorted : bs.Pairwise fun b c => b.aliasName < c.aliasName

variable {t : AliasTable} {package : PackageRef} {known : Bool}

/-! ## Names in a table -/

theorem path?_eq_none {name : String} : t.path? name = none ↔ ∀ b ∈ t.bindings, b.aliasName ≠ name := by
  simp [path?]

theorem isFree_iff {name : String} : t.IsFree name ↔ name ∉ t.taken := by
  rw [IsFree, path?_eq_none, taken, List.mem_append, not_or, List.mem_map]
  refine and_congr_right fun _ => ?_
  constructor
  · rintro h ⟨b, hb, hname⟩
    exact h b hb hname
  · intro h b hb hname
    exact h ⟨b, hb, hname⟩

theorem chooses_fresh (t : AliasTable) (name : String) : t.Chooses name (fresh name t.taken) := by
  obtain ⟨k, hk, hfree, hleast⟩ := Text.fresh_spec name t.taken
  rw [hk]
  have hzero : candidate name 0 = name := if_pos rfl
  have hpos : ∀ j, 0 < j → candidate name j = name ++ toString j := by
    intro j hj
    rw [candidate, if_neg (by omega)]
  rcases Nat.eq_zero_or_pos k with rfl | hkpos
  · rw [hzero] at hfree ⊢
    exact .own (isFree_iff.2 hfree)
  · have hname := hleast 0 hkpos
    rw [hzero] at hname
    rw [hpos k hkpos] at hfree ⊢
    refine .numbered (fun h => isFree_iff.1 h hname) hkpos (isFree_iff.2 hfree) ?_
    intro j hj hjk h
    have hbefore := hleast j hjk
    rw [hpos j hj] at hbefore
    exact isFree_iff.1 h hbefore

/-! ## Both directions -/

theorem Distinct.path?_eq_some_iff (h : t.Distinct) {aliasName path : String} :
    t.path? aliasName = some path ↔
      ∃ b ∈ t.bindings, b.aliasName = aliasName ∧ b.path = path := by
  constructor
  · intro hp
    obtain ⟨b, hb, hpath⟩ := Option.map_eq_some_iff.1 hp
    have hname : b.aliasName = aliasName := by simpa using List.find?_some hb
    exact ⟨b, List.mem_of_find?_eq_some hb, hname, hpath⟩
  · rintro ⟨b, hb, rfl, rfl⟩
    exact h.path?_eq hb

theorem Distinct.alias?_eq_some_iff (h : t.Distinct) {aliasName path : String} :
    t.alias? path = some aliasName ↔
      ∃ b ∈ t.bindings, b.aliasName = aliasName ∧ b.path = path := by
  constructor
  · intro ha
    obtain ⟨b, hb, hname⟩ := Option.map_eq_some_iff.1 ha
    have hpath : b.path = path := by simpa using List.find?_some hb
    exact ⟨b, List.mem_of_find?_eq_some hb, hname, hpath⟩
  · rintro ⟨b, hb, rfl, rfl⟩
    exact h.alias?_eq hb

theorem Distinct.path?_eq_some_iff_alias? (h : t.Distinct) (aliasName path : String) :
    t.path? aliasName = some path ↔ t.alias? path = some aliasName := by
  rw [h.path?_eq_some_iff, h.alias?_eq_some_iff]

/-! ## Calls -/

@[simp] theorem reserved_bind (t : AliasTable) (package : PackageRef) (known : Bool) :
    (t.bind package known).reserved = t.reserved := by
  unfold bind
  split <;> rfl

theorem reserved_bindEach (t : AliasTable) (calls : List (PackageRef × Bool)) :
    (t.bindEach calls).reserved = t.reserved := by
  refine bindEach_induction (P := fun u => u.reserved = t.reserved) rfl ?_
  intro u call _ h
  rw [reserved_bind, h]

/-- No alias is a reserved name. -/
def Spares (t : AliasTable) : Prop := ∀ b ∈ t.bindings, b.aliasName ∉ t.reserved

theorem Spares.bind (h : t.Spares) : (t.bind package known).Spares := by
  rw [Spares, reserved_bind]
  have hfree := isFree_iff.2 (Text.fresh_not_mem package.name t.taken)
  exact forall_mem_bind h hfree.1

theorem spares_bindEach (reserved : List String) (calls : List (PackageRef × Bool)) :
    ((withReserved reserved).bindEach calls).Spares :=
  bindEach_induction (fun _ hb => nomatch hb) fun _ _ _ h => h.bind

theorem Spares.path?_eq_none {name : String} (h : t.Spares) (hname : name ∈ t.reserved) :
    t.path? name = none := by
  refine AliasTable.path?_eq_none.2 fun b hb heq => ?_
  exact h b hb (heq ▸ hname)

/-- A call answers with the alias that the path has, or chooses one for it. -/
theorem Distinct.exists_answer (h : t.Distinct) (package : PackageRef) (known : Bool) :
    ∃ aliasName, t.answer package known = some aliasName ∧
      (t.alias? package.path = some aliasName ∨
        t.alias? package.path = none ∧ t.Chooses package.name aliasName) := by
  have hd : (t.bind package known).Distinct := h.bind
  obtain ⟨hsame, b, hb, hpath⟩ | ⟨-, hnew, hpath⟩ := bind_cases t package known
  · have ha := h.alias?_eq hb
    rw [hpath] at ha
    refine ⟨b.aliasName, ?_, .inl ha⟩
    rw [answer, hsame, ha]
  · have hmem : (⟨fresh package.name t.taken, package.path, known⟩ : AliasBinding) ∈
        (t.bind package known).bindings := by
      rw [hnew]
      exact List.mem_append_right _ List.mem_cons_self
    exact ⟨_, hd.alias?_eq hmem, .inr ⟨alias?_eq_none.2 hpath, chooses_fresh t package.name⟩⟩

/-- A binding is never changed. -/
theorem Distinct.alias?_bindEach (h : t.Distinct) {path aliasName : String}
    (ha : t.alias? path = some aliasName) (calls : List (PackageRef × Bool)) :
    (t.bindEach calls).alias? path = some aliasName := by
  obtain ⟨b, hb, rfl, rfl⟩ := h.alias?_eq_some_iff.1 ha
  exact (h.bindEach calls).alias?_eq ((bindings_prefix_bindEach t calls).subset hb)

/-- A path that has an alias is given that alias again. -/
theorem Distinct.answer_bindEach (h : t.Distinct) (package : PackageRef) {aliasName : String}
    (ha : t.alias? package.path = some aliasName) (calls : List (PackageRef × Bool))
    (known : Bool) : (t.bindEach calls).answer package known = some aliasName := by
  have hall := h.alias?_bindEach ha (calls ++ [(package, known)])
  rwa [AliasTable.bindEach, List.foldl_append] at hall

/-! ## The block -/

theorem Distinct.byAlias_sorted (h : t.Distinct) :
    t.byAlias.Pairwise fun b c => b.aliasName < c.aliasName := by
  have hkeys : ((t.bindings.map fun b => (b.aliasName, b)).map (·.1)).Nodup := by
    rw [List.map_map]
    exact h.aliases
  -- each binding stands under its own alias
  have hown : ∀ e ∈ (Dict.ofList (t.bindings.map fun b => (b.aliasName, b))).entries,
      e.1 = e.2.aliasName := by
    intro e he
    obtain ⟨b, -, rfl⟩ := List.mem_map.1 ((Dict.ofList_perm hkeys).mem_iff.1 he)
    rfl
  refine List.pairwise_map.2 ((Dict.ofList _).sorted.imp_of_mem ?_)
  intro e e' he he' hlt
  rw [← hown e he, ← hown e' he']
  exact compareOfLessAndEq_eq_lt.1 hlt

theorem Distinct.lists_byAlias (h : t.Distinct) : t.Lists t.byAlias := by
  have hperm := h.byAlias_perm
  refine ⟨?_, fun b _ => ?_, fun b hb => h.path?_eq (hperm.mem_iff.1 hb), fun path => ?_,
    h.byAlias_sorted⟩
  · rw [render, hperm.isEmpty_eq]
  · rw [← String.toList_inj, b.line_toList, AliasBinding.chars]
    cases b.isBare <;> simp
  · rw [(hperm.map _).count_eq]
    cases ha : t.alias? path with
    | none =>
      refine List.count_eq_zero.2 fun hm => ?_
      obtain ⟨b, hb, rfl⟩ := List.mem_map.1 hm
      rw [h.alias?_eq hb] at ha
      cases ha
    | some aliasName =>
      obtain ⟨b, hb, -, rfl⟩ := h.alias?_eq_some_iff.1 ha
      exact List.count_eq_one_of_mem h.paths (List.mem_map_of_mem hb)

/-- After any calls: aliases and paths stand for each other, and no reserved name is an alias. A path
that has an alias keeps it, whatever is called later, and is given it again under whatever name. The
next call gives the alias that the path has, or chooses one. The block lists each path once, in the
order of the aliases. -/
theorem bindEach_history (reserved : List String) (calls : List (PackageRef × Bool)) :
    let t := (withReserved reserved).bindEach calls
    t.reserved = reserved ∧
      (∀ aliasName path, t.path? aliasName = some path ↔ t.alias? path = some aliasName) ∧
      (∀ aliasName ∈ reserved, t.path? aliasName = none) ∧
      (∀ path aliasName later, t.alias? path = some aliasName →
        (t.bindEach later).alias? path = some aliasName ∧
          ∀ name known, (t.bindEach later).answer ⟨path, name⟩ known = some aliasName) ∧
      (∀ package known, ∃ aliasName, t.answer package known = some aliasName ∧
        (t.alias? package.path = some aliasName ∨
          t.alias? package.path = none ∧ t.Chooses package.name aliasName)) ∧
      ∃ bs, t.Lists bs := by
  intro t
  have hd : t.Distinct := (distinct_withReserved reserved).bindEach calls
  have hr : t.reserved = reserved := reserved_bindEach _ calls
  refine ⟨hr, hd.path?_eq_some_iff_alias?, ?_, ?_, hd.exists_answer, t.byAlias, hd.lists_byAlias⟩
  · intro aliasName hreserved
    refine path?_eq_none.2 fun b hb hname => ?_
    have hspared : b.aliasName ∉ t.reserved := spares_bindEach reserved calls b hb
    rw [hname, hr] at hspared
    exact hspared hreserved
  · intro path aliasName later ha
    refine ⟨hd.alias?_bindEach ha later, fun name known => ?_⟩
    exact hd.answer_bindEach ⟨path, name⟩ ha later known

/-- A package that is really called `pkg1` finds that name taken by the second `pkg`. -/
example :
    let t := (withReserved ["obj"]).bindEach
      [(⟨"a/pkg", "pkg"⟩, true), (⟨"b/pkg", "pkg"⟩, true), (⟨"c/pkg1", "pkg1"⟩, true)]
    t.answer ⟨"c/pkg1", "pkg1"⟩ true = some "pkg11" ∧ t.answer ⟨"d/obj", "obj"⟩ true = some "obj1" := by
  decide +kernel

end AliasTable
end ResetMethods
