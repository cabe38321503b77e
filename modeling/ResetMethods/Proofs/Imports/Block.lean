import ResetMethods.Proofs.Dict
import ResetMethods.Proofs.Imports.Bindings
import ResetMethods.Proofs.Layout.Generated
import ResetMethods.Proofs.Text.Cutting

/-!
# ResetMethods.Proofs.Imports.Block

The import block against the table that it is written for.

* `ImportSpec.ofLine?`, `importsOf?`: a block is read line by line.
* `ImportSpec.binding`: the name an import binds is the one written, or without one, the name that
  the package declares.
* `importsOf?_render`: what is read of a block. All paths are there, but an alias is left out where
  it is the last segment of the path and the name of the package is known (`AliasBinding.isBare`).
* `reads_back_iff`: the names bound are those of the table, unless an alias that had to be numbered
  happens to be the last segment of its path. `numbered_alias_left_out`: then they are not.
-/

namespace ResetMethods

open Text (candidate lines pieces)

/-! ## Reading -/

/-- The import that a line states: behind a tab a name with a blank, if there is one, and a path in
quotes. -/
def ImportSpec.ofLine? : List Char → Option ImportSpec
  | '\t' :: rest =>
    match pieces '"' rest with
    | [front, path, []] =>
      if front = [] then some ⟨none, .ofList path⟩
      else if front.getLast? = some ' ' then some ⟨some (.ofList front.dropLast), .ofList path⟩
      else none
    | _ => none
  | _ => none

/-- The imports of a block in parentheses; there may be no block. -/
def importsOf? (block : String) : Option (List ImportSpec) :=
  match lines block.toList with
  | [] => some []
  | first :: rest =>
    if first = "import (".toList ∧ rest.getLast? = some [')'] then
      rest.dropLast.mapM ImportSpec.ofLine?
    else none

/-- The name that an import binds, and its path. `declared` tells which name the package at a path
declares. -/
def ImportSpec.binding (declared : String → String) (spec : ImportSpec) : String × String :=
  (spec.name.getD (declared spec.path), spec.path)

namespace AliasBinding

def lastSegment (b : AliasBinding) : String :=
  .ofList ((pieces '/' b.path.toList).getLast?.getD b.path.toList)

/-- Whether the alias is left out of the line. -/
def isBare (b : AliasBinding) : Bool := b.nameKnown && b.aliasName == b.lastSegment

/-- What the line states. -/
def spec (b : AliasBinding) : ImportSpec := ⟨if b.isBare then none else some b.aliasName, b.path⟩

/-- The alias is the declared name with a number behind it. -/
def IsNumbered (declared : String → String) (b : AliasBinding) : Prop :=
  ∃ k, 0 < k ∧ b.aliasName = candidate (declared b.path) k

/-- The line without its end. -/
def chars (b : AliasBinding) : List Char :=
  '\t' :: (if b.isBare then [] else b.aliasName.toList ++ [' ']) ++ '"' :: b.path.toList ++ ['"']

theorem line_toList (b : AliasBinding) : b.line.toList = b.chars ++ ['\n'] := by
  unfold line chars isBare lastSegment
  by_cases hk : b.nameKnown = true
  · by_cases hl : b.aliasName = String.ofList ((pieces '/' b.path.toList).getLast?.getD b.path.toList)
    · simp [hk, ← hl]
    · simp [hk, hl]
  · simp [hk]

variable {b : AliasBinding}

theorem Ok.quote_not_mem (h : b.Ok) : '"' ∉ b.path.toList := fun hm => (h.path _ hm).1 rfl

theorem Ok.mem_alias (h : b.Ok) {c : Char} (hc : c ∈ b.aliasName.toList) : c ≠ '"' ∧ c ≠ '\n' := by
  have hw := h.aliasName.all c hc
  constructor
  · rintro rfl
    rw [markers_not_word (by decide)] at hw
    cases hw
  · rintro rfl
    rw [markers_not_word (by decide)] at hw
    cases hw

theorem Ok.ofLine?_chars (h : b.Ok) : ImportSpec.ofLine? b.chars = some b.spec := by
  have hpath : pieces '"' (b.path.toList ++ ['"']) = [b.path.toList, []] := by
    rw [Text.pieces_cons h.quote_not_mem]
    rfl
  unfold chars spec
  cases hb : b.isBare with
  | true =>
    have hp := Text.pieces_cons (List.not_mem_nil (a := '"')) (b.path.toList ++ ['"'])
    rw [hpath] at hp
    rw [List.nil_append] at hp
    simp [ImportSpec.ofLine?, hp]
  | false =>
    have hfront : '"' ∉ b.aliasName.toList ++ [' '] := by
      intro hm
      rcases List.mem_append.1 hm with hm | hm
      · exact (h.mem_alias hm).1 rfl
      · simp at hm
    have hp := Text.pieces_cons hfront (b.path.toList ++ ['"'])
    rw [hpath, List.append_assoc, List.singleton_append] at hp
    simp [ImportSpec.ofLine?, hp]

theorem Ok.chars_line (h : b.Ok) : '\n' ∉ b.chars ∧ b.chars.getLast? ≠ some '\r' := by
  constructor
  · intro hm
    have hpath : '\n' ∉ b.path.toList := fun hm => (h.path _ hm).2.2 rfl
    have halias : '\n' ∉ b.aliasName.toList := fun hm => (h.mem_alias hm).2 rfl
    unfold chars at hm
    split at hm
    · simp [hpath] at hm
    · simp [hpath, halias] at hm
  · rw [chars, List.getLast?_concat]
    decide

theorem mapM_ofLine?_chars {bs : List AliasBinding} (h : ∀ b ∈ bs, b.Ok) :
    (bs.map (·.chars)).mapM ImportSpec.ofLine? = some (bs.map (·.spec)) := by
  induction bs with
  | nil => rfl
  | cons b bs ih =>
    obtain ⟨hb, hbs⟩ := List.forall_mem_cons.1 h
    simp [hb.ofLine?_chars, ih hbs]

end AliasBinding

namespace AliasTable

variable {t : AliasTable}

/-- A block states one import for each binding, in the order of the aliases. -/
theorem importsOf?_render (h : t.Ok) : importsOf? t.render = some (t.byAlias.map (·.spec)) := by
  cases hn : t.bindings with
  | nil => simp [importsOf?, render, byAlias, hn, lines, Dict.ofList, Dict.values, Dict.empty]
  | cons b rest =>
    have hrender : t.render.toList =
        Layout.unlines ("import (".toList :: (t.byAlias.map (·.chars) ++ [[')']])) := by
      rw [render, hn]
      simp [Layout.unlines, String.toList_join, List.flatMap_map, AliasBinding.line_toList]
    have hlines : lines t.render.toList = "import (".toList :: (t.byAlias.map (·.chars) ++ [[')']]) := by
      rw [hrender]
      apply Layout.lines_unlines
      intro l hl
      rcases List.mem_cons.1 hl with rfl | hl
      · decide
      rcases List.mem_append.1 hl with hl | hl
      · obtain ⟨b, hb, rfl⟩ := List.mem_map.1 hl
        exact (h.byAlias b hb).chars_line
      · rw [List.mem_singleton.1 hl]
        decide
    have hread := AliasBinding.mapM_ofLine?_chars h.byAlias
    rw [importsOf?, hlines]
    simp [hread]

theorem Distinct.byAlias_perm (h : t.Distinct) : t.byAlias.Perm t.bindings := by
  have hkeys : ((t.bindings.map fun b => (b.aliasName, b)).map (·.1)).Nodup := by
    rw [List.map_map]
    exact h.aliases
  have hperm := (Dict.ofList_perm hkeys).map (·.2)
  rw [List.map_map] at hperm
  simpa [byAlias, Dict.values, Function.comp_def] using hperm

/-- The names that are read are those of the table exactly if an alias is left out only where it is
the declared name. -/
theorem Distinct.means_iff (h : t.Distinct) (declared : String → String) :
    ((t.byAlias.map (·.spec)).map (·.binding declared)).Perm
        (t.bindings.map fun b => (b.aliasName, b.path)) ↔
      ∀ b ∈ t.bindings, b.isBare = true → b.aliasName = declared b.path := by
  have hread : ((t.byAlias.map (·.spec)).map (·.binding declared)).Perm
      (t.bindings.map fun b => b.spec.binding declared) := by
    rw [List.map_map]
    exact h.byAlias_perm.map _
  rw [hread.congr_left]
  constructor
  · intro hperm b hb hbare
    have hmem : (declared b.path, b.path) ∈ t.bindings.map fun b => (b.aliasName, b.path) := by
      rw [← hperm.mem_iff]
      exact List.mem_map.2 ⟨b, hb, by simp [AliasBinding.spec, ImportSpec.binding, hbare]⟩
    -- the binding with that path is `b` itself
    obtain ⟨c, hc, heq⟩ := List.mem_map.1 hmem
    obtain ⟨halias, hpath⟩ := Prod.mk.inj heq
    rw [← halias, List.inj_on_of_nodup_map h.paths hc hb hpath]
  · intro hbare
    refine .of_eq (List.map_congr_left fun b hb => ?_)
    cases hcase : b.isBare with
    | true => simp [AliasBinding.spec, ImportSpec.binding, hcase, hbare b hb hcase]
    | false => simp [AliasBinding.spec, ImportSpec.binding, hcase]

/-! ## The calls of a file -/

theorem ok_bindEach {calls : List (PackageRef × Bool)} (h : t.Ok)
    (hc : ∀ call ∈ calls, call.1.Ok) : (t.bindEach calls).Ok :=
  bindEach_induction h fun _ call hcall ht => ht.bind (hc call hcall) call.2

/-- Where the flags are right, a known package goes by its declared name or by that name with a
number. -/
theorem exists_candidate {declared : String → String} {calls : List (PackageRef × Bool)}
    (hknown : ∀ call ∈ calls, call.2 = true → declared call.1.path = call.1.name)
    (reserved : List String) :
    ∀ b ∈ ((withReserved reserved).bindEach calls).bindings, b.nameKnown = true →
      ∃ k, b.aliasName = candidate (declared b.path) k := by
  refine bindEach_induction (P := fun t => ∀ b ∈ t.bindings, b.nameKnown = true →
    ∃ k, b.aliasName = candidate (declared b.path) k) (fun b hb => nomatch hb) ?_
  intro t call hcall ht b hb hflag
  obtain ⟨hsame, -⟩ | ⟨-, hnew, -⟩ := bind_cases t call.1 call.2
  · rw [hsame] at hb
    exact ht b hb hflag
  · rw [hnew, List.mem_append, List.mem_singleton] at hb
    rcases hb with hb | rfl
    · exact ht b hb hflag
    · obtain ⟨k, hk, -⟩ := Text.fresh_spec call.1.name t.taken
      exact ⟨k, by rw [hknown call hcall hflag, hk]⟩

end AliasTable

theorem AliasBinding.not_isNumbered {declared : String → String} {b : AliasBinding}
    (h : b.aliasName = declared b.path) : ¬ b.IsNumbered declared := by
  rintro ⟨k, hk, halias⟩
  have hzero : candidate (declared b.path) k = candidate (declared b.path) 0 := by
    rw [← halias, h, candidate, if_pos rfl]
  have hk0 := Text.candidate_injective _ hzero
  omega

/-- The block of a table states imports, and the names that these bind are the aliases of the table
exactly if the alias is written wherever it had to be numbered. -/
theorem AliasTable.reads_back_iff {declared : String → String} {calls : List (PackageRef × Bool)}
    (hok : ∀ call ∈ calls, call.1.Ok)
    (hknown : ∀ call ∈ calls, call.2 = true → declared call.1.path = call.1.name)
    (reserved : List String) :
    let t := (withReserved reserved).bindEach calls
    ∃ specs, importsOf? t.render = some specs ∧
      ((specs.map (·.binding declared)).Perm (t.bindings.map fun b => (b.aliasName, b.path)) ↔
        ∀ b ∈ t.bindings, b.IsNumbered declared → b.isBare = false) := by
  intro t
  have ht : t.Ok := ok_bindEach (fun b hb => nomatch hb) hok
  have hdistinct : t.Distinct := (distinct_withReserved reserved).bindEach calls
  refine ⟨_, importsOf?_render ht, (hdistinct.means_iff declared).trans ?_⟩
  refine forall₂_congr fun b hb => ⟨fun h hnumbered => ?_, fun h hbare => ?_⟩
  · rw [← Bool.not_eq_true]
    intro hbare
    exact AliasBinding.not_isNumbered (h hbare) hnumbered
  · have hflag : b.nameKnown = true := by
      simp only [AliasBinding.isBare, Bool.and_eq_true] at hbare
      exact hbare.1
    obtain ⟨k, hk⟩ := exists_candidate hknown reserved b hb hflag
    rcases Nat.eq_zero_or_pos k with rfl | hpos
    · rw [hk, candidate, if_pos rfl]
    · rw [h ⟨k, hpos, hk⟩] at hbare
      cases hbare

/-! ## Samples -/

namespace ImportSample

/-- What the packages of the samples declare as their names. -/
def declared (path : String) : String :=
  if path = "time" then "time" else if path = "gopkg.in/yaml.v3" then "yaml" else "pkg"

/-- Two packages of one name, one of the standard library, and one whose name is a guess. -/
def calls : List (PackageRef × Bool) :=
  [(⟨"time", "time"⟩, true), (⟨"example.com/a/pkg", "pkg"⟩, true),
    (⟨"example.com/b/pkg", "pkg"⟩, true), (⟨"gopkg.in/yaml.v3", "yaml"⟩, false)]

def table : AliasTable := (AliasTable.withReserved ["obj"]).bindEach calls

theorem bindings_eq : table.bindings =
    [⟨"time", "time", true⟩, ⟨"pkg", "example.com/a/pkg", true⟩,
      ⟨"pkg1", "example.com/b/pkg", true⟩, ⟨"yaml", "gopkg.in/yaml.v3", false⟩] := by
  decide +kernel

theorem ok_calls : ∀ call ∈ calls, call.1.Ok := by
  simp only [calls, List.forall_mem_cons]
  refine ⟨?_, ?_, ?_, ?_, by simp⟩
  all_goals exact ⟨isWord_literal rfl, isPath_literal rfl⟩

end ImportSample

theorem AliasTable.reads_back_iff_sample :
    (∀ call ∈ ImportSample.calls, call.1.Ok) ∧
      (∀ call ∈ ImportSample.calls, call.2 = true →
        ImportSample.declared call.1.path = call.1.name) ∧
      ∃ specs, importsOf? ImportSample.table.render = some specs ∧
        (specs.map (·.binding ImportSample.declared)).Perm
          (ImportSample.table.bindings.map fun b => (b.aliasName, b.path)) := by
  have hknown : ∀ call ∈ ImportSample.calls, call.2 = true →
      ImportSample.declared call.1.path = call.1.name := by decide
  obtain ⟨specs, hread, hiff⟩ := reads_back_iff ImportSample.ok_calls hknown ["obj"]
  refine ⟨ImportSample.ok_calls, hknown, specs, hread, hiff.2 ?_⟩
  rw [show ((withReserved ["obj"]).bindEach ImportSample.calls).bindings = _ from
    ImportSample.bindings_eq]
  simp only [List.forall_mem_cons]
  refine ⟨?_, ?_, fun _ => by decide, fun _ => by decide, by simp⟩
  · intro h
    exact absurd h (AliasBinding.not_isNumbered rfl)
  · intro h
    exact absurd h (AliasBinding.not_isNumbered rfl)

/-- The alias `pkg1` is left out as the last segment of its path. Both imports are read to bind
`pkg`, which are not the bindings of the table. -/
theorem AliasTable.numbered_alias_left_out :
    let calls : List (PackageRef × Bool) :=
      [(⟨"example.com/a/pkg", "pkg"⟩, true), (⟨"example.com/b/pkg1", "pkg"⟩, true)]
    let t := (withReserved []).bindEach calls
    (∀ call ∈ calls, call.2 = true → ImportSample.declared call.1.path = call.1.name) ∧
      t.bindings.map (fun b => (b.aliasName, b.path)) =
        [("pkg", "example.com/a/pkg"), ("pkg1", "example.com/b/pkg1")] ∧
      ∃ specs, importsOf? t.render = some specs ∧
        specs.map (·.binding ImportSample.declared) =
          [("pkg", "example.com/a/pkg"), ("pkg", "example.com/b/pkg1")] ∧
        ¬ (specs.map (·.binding ImportSample.declared)).Perm
          (t.bindings.map fun b => (b.aliasName, b.path)) := by
  refine ⟨by decide, by decide +kernel, [⟨none, "example.com/a/pkg"⟩, ⟨none, "example.com/b/pkg1"⟩],
    by decide +kernel, by decide, by decide +kernel⟩

end ResetMethods
