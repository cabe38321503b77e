import ResetMethods.Proofs.Imports.Qualified
import ResetMethods.Proofs.Printing.References
import ResetMethods.Proofs.Printing.RoundTrip

/-!
# ResetMethods.Proofs.Printing.Unambiguous

Types that are printed one after another.

* `Viewpoint.printEach`: the texts of some types. Each text binds the aliases that it needs, so the
  table grows from one to the next.
* `Viewpoint.Serves`: the last table still has the aliases that a text was printed with, so all
  texts can be read against it.
* `printEach_text_eq_iff`: two types have the same text exactly if they show the same.
-/

namespace ResetMethods

/-! ## Tables with identifiers -/

namespace AliasTable

variable {t : AliasTable}

/-- The aliases are identifiers. -/
def IsWorded (t : AliasTable) : Prop := ∀ b ∈ t.bindings, IsWord b.aliasName

theorem IsWorded.bindEach (h : t.IsWorded) {calls : List (PackageRef × Bool)}
    (hc : ∀ call ∈ calls, IsWord call.1.name) : (t.bindEach calls).IsWorded :=
  bindEach_induction h fun u call hcall hu => forall_mem_bind hu ((hc call hcall).fresh u.taken)

theorem IsWorded.of_path? (h : t.IsWorded) {aliasName path : String}
    (hp : t.path? aliasName = some path) : IsWord aliasName := by
  obtain ⟨b, hb, -⟩ := Option.map_eq_some_iff.1 hp
  have hname : b.aliasName = aliasName := by simpa using List.find?_some hb
  rw [← hname]
  exact h b (List.mem_of_find?_eq_some hb)

end AliasTable

/-! ## Printing -/

namespace Viewpoint

/-- Prints some types, one after another, and binds the aliases that each of them needs. -/
def printEach (v : Viewpoint) : AliasTable → List Ty → List (Ty × String)
  | _, [] => []
  | t, ty :: rest =>
    let later := v.bindAll t ty.packages
    (ty, v.spell later ty) :: v.printEach later rest

/-- The table after some types have been printed. -/
def afterEach (v : Viewpoint) (t : AliasTable) (tys : List Ty) : AliasTable :=
  v.bindAll t (tys.flatMap (·.packages))

/-- What stands before a name of the package at a path. -/
def qualifierAt (v : Viewpoint) (t : AliasTable) (path : String) : String :=
  v.qualifier t ⟨path, ""⟩

/-- What the names in the printed texts mean in the end. -/
def lexicon (v : Viewpoint) (params : List String) (t : AliasTable) : Lexicon :=
  ⟨v.localPath, params, t.path?⟩

variable {v : Viewpoint} {t : AliasTable} {tys : List Ty} {params : List String}

theorem afterEach_append (v : Viewpoint) (t : AliasTable) (front back : List Ty) :
    v.afterEach t (front ++ back) = v.afterEach (v.afterEach t front) back := by
  rw [afterEach, List.flatMap_append, bindAll, List.foldl_append]
  rfl

theorem worded_afterEach (h : t.IsWorded) (hp : ∀ ty ∈ tys, ∀ p ∈ ty.packages, IsWord p.name) :
    (v.afterEach t tys).IsWorded := by
  rw [afterEach, bindAll_eq]
  refine h.bindEach fun call hcall => ?_
  obtain ⟨hmem, -⟩ := mem_calls.1 hcall
  obtain ⟨ty, hty, hpackage⟩ := List.mem_flatMap.1 hmem
  exact hp ty hty call.1 hpackage

theorem afterEach_cons (v : Viewpoint) (t : AliasTable) (ty : Ty) (rest : List Ty) :
    v.afterEach t (ty :: rest) = v.afterEach (v.bindAll t ty.packages) rest := by
  simpa [afterEach] using v.afterEach_append t [ty] rest

/-- A type is printed with the table that it and the types before it have left. -/
theorem exists_front {printed : Ty × String} (h : printed ∈ v.printEach t tys) :
    ∃ front back, tys = front ++ back ∧ printed.1 ∈ front ∧
      printed.2 = v.spell (v.afterEach t front) printed.1 := by
  induction tys generalizing t with
  | nil => cases h
  | cons ty rest ih =>
    rcases List.mem_cons.1 h with rfl | h
    · exact ⟨[ty], rest, rfl, List.mem_cons_self, by rw [afterEach_cons]; rfl⟩
    · obtain ⟨front, back, rfl, hmem, htext⟩ := ih h
      exact ⟨ty :: front, back, rfl, List.mem_cons_of_mem _ hmem, by rw [htext, afterEach_cons]⟩

/-- A table has the aliases that the text of a type needs, and the last table keeps them. -/
structure Serves (v : Viewpoint) (u last : AliasTable) (ty : Ty) : Prop where
  distinct : u.Distinct
  kept : u.bindings <+: last.bindings
  bound : ∀ p ∈ ty.packages, p.path ≠ v.localPath → ∃ b ∈ u.bindings, b.path = p.path

/-- Later printings only add bindings. -/
theorem exists_serves (hd : t.Distinct) {printed : Ty × String} (h : printed ∈ v.printEach t tys) :
    ∃ u, v.Serves u (v.afterEach t tys) printed.1 ∧ printed.2 = v.spell u printed.1 := by
  obtain ⟨front, back, htys, hmem, htext⟩ := exists_front h
  refine ⟨v.afterEach t front, ⟨distinct_bindAll hd _, ?_, fun p hp => ?_⟩, htext⟩
  · rw [htys, afterEach_append]
    exact bindings_prefix_bindAll v _ _
  · exact exists_of_bindAll (List.mem_flatMap.2 ⟨printed.1, hmem, hp⟩)

section Serves

variable {u last : AliasTable} {ty : Ty}

/-- The qualifier of a package depends on its path alone, and stays what it is. -/
theorem Serves.qualifier_eq (h : v.Serves u last ty) (hd : last.Distinct) {p : PackageRef}
    {name : String} (hr : ty.Refers p name) : v.qualifier u p = v.qualifierAt last p.path := by
  by_cases hlocal : p.path = v.localPath
  · simp [qualifierAt, qualifier, hlocal]
  · have hp : p ∈ ty.packages := by
      rw [← (ty.writes (v.qualifier u)).packages]
      exact Piece.mem_packages (Ty.mem_pieces_iff.2 ⟨hr, rfl⟩)
    obtain ⟨b, hb, hpath⟩ := h.bound p hp hlocal
    have hlater : v.qualifierAt last p.path = b.aliasName ++ "." :=
      Viewpoint.qualifier_eq hd (h.kept.subset hb) hpath hlocal
    rw [Viewpoint.qualifier_eq h.distinct hb hpath hlocal, hlater]

/-- The last table knows the qualifiers in the text. -/
theorem Serves.knows (h : v.Serves u last ty) (hd : last.Distinct) (hw : last.IsWorded)
    (hl : ty.IsLegible v.localPath params) :
    (v.lexicon params last).Knows (v.qualifier u) ty := by
  refine ⟨hl, fun p name hr => ?_⟩
  have hresolves := (resolves h.distinct (ty.writes _) h.bound).mono h.kept hd
  rcases hresolves p _ name (Ty.mem_pieces_iff.2 ⟨hr, rfl⟩) with ⟨hq, hp⟩ | ⟨aliasName, hq, hp⟩
  · exact .own hq hp
  · exact .foreign (hw.of_path? hp) hq hp

end Serves

/-- Two printed types have the same text exactly if they show the same, whatever was printed before
them and between them. -/
theorem printEach_text_eq_iff (v : Viewpoint) (reserved : List String)
    (calls : List (PackageRef × Bool)) (tys : List Ty) (params : List String)
    (hcalls : ∀ call ∈ calls, IsWord call.1.name)
    (hnames : ∀ ty ∈ tys, ∀ p ∈ ty.packages, IsWord p.name)
    (hapart : SetApart v.localPath params) :
    let printed := v.printEach ((AliasTable.withReserved reserved).bindEach calls) tys
    ∀ a ∈ printed, ∀ b ∈ printed,
      a.1.IsLegible v.localPath params → b.1.IsLegible v.localPath params →
        (a.2 = b.2 ↔ a.1.shown = b.1.shown) := by
  intro printed a ha b hb hla hlb
  have hd := (AliasTable.distinct_withReserved reserved).bindEach calls
  have hlast := distinct_bindAll (v := v) hd (tys.flatMap (·.packages))
  have hstart : (AliasTable.withReserved reserved).IsWorded := fun _ hb => nomatch hb
  have hw := worded_afterEach (v := v) (hstart.bindEach hcalls) hnames
  obtain ⟨u, hua, hta⟩ := exists_serves hd ha
  obtain ⟨u', hub, htb⟩ := exists_serves hd hb
  rw [hta, htb]
  constructor
  · exact Lexicon.shown_eq_of_spell_eq hapart (hua.knows hlast hw hla) (hub.knows hlast hw hlb)
  · intro hshown
    have hspell := Ty.spell_shown fun p name hr => hua.qualifier_eq hlast hr
    have hspell' := Ty.spell_shown fun p name hr => hub.qualifier_eq hlast hr
    rw [spell, spell, hspell, hspell', hshown]

/-! ### A package under two names -/

namespace Channels

def view : Viewpoint := ⟨default, "example.com/app"⟩

def aliases : AliasTable := (AliasTable.withReserved ["obj"]).bindEach [(⟨"a/pkg", "pkg"⟩, true)]

/-- A channel of receive-only channels of `T`, from the package at `b/pkg` under some name. -/
def channels (name : String) : Ty :=
  .channel .both (.channel .receive (.named ⟨some ⟨"b/pkg", name⟩, "T", []⟩))

def between : Ty := .pointer (.named ⟨some ⟨"c/pkg", "pkg"⟩, "T", []⟩)

theorem isLegible_channels (name : String) : (channels name).IsLegible "example.com/app" [] := by
  have hT : IsPlainName "T" := ⟨isWord_literal (by decide +kernel), by decide⟩
  have hnamed : Ty.IsLegible "example.com/app" [] (.named ⟨some ⟨"b/pkg", name⟩, "T", []⟩) :=
    (Ty.isLegible_iff _ _).2 ⟨⟨hT, by simp, by simp⟩, fun c hc => nomatch hc⟩
  have hreceive : Ty.IsLegible "example.com/app" []
      (.channel .receive (.named ⟨some ⟨"b/pkg", name⟩, "T", []⟩)) :=
    (Ty.isLegible_iff _ _).2 ⟨trivial, by simpa [Ty.children] using hnamed⟩
  exact (Ty.isLegible_iff _ _).2 ⟨trivial, by simpa [channels, Ty.children] using hreceive⟩

end Channels

open Channels in
theorem printEach_text_eq_iff_channels :
    (view.printEach aliases [channels "pkg", between, channels "other"]).map (·.2) =
        ["chan (<-chan pkg1.T)", "*pkg2.T", "chan (<-chan pkg1.T)"] ∧
      (channels "pkg").shown = (channels "other").shown := by
  have hpkg : IsWord "pkg" := isWord_literal (by decide +kernel)
  have hother : IsWord "other" := isWord_literal (by decide +kernel)
  refine ⟨by decide +kernel, ?_⟩
  refine (printEach_text_eq_iff view ["obj"] [(⟨"a/pkg", "pkg"⟩, true)]
    [channels "pkg", between, channels "other"] [] ?_ ?_ ⟨by simp, by simp⟩ (channels "pkg", _)
    List.mem_cons_self (channels "other", _)
    (List.mem_cons_of_mem _ (List.mem_cons_of_mem _ List.mem_cons_self))
    (isLegible_channels "pkg") (isLegible_channels "other")).1 (by decide +kernel)
  · simpa using hpkg
  · simp [channels, between, Ty.packages, Named.packages, Ty.packagesOfAll, hpkg, hother]

end Viewpoint
end ResetMethods
