import Mathlib.Data.List.Induction
import ResetMethods.Proofs.Dict
import ResetMethods.Proofs.Files.Following

/-!
# ResetMethods.Proofs.Files.Trees

File systems as trees.

* `FileTree.IsTree`: every entry has proper names and lies in a directory.
* `FileTree.Unlinked`: no entry of a name is a link.
* `IsTree.locate_joinAll`: an entry below a directory is found by the names that lead there.
* `IsTree.entry?_of_found`: a path that leads somewhere leads to an entry.
* `locate_true_of_find`: where that is no link, it does not matter whether links are followed.
-/

namespace ResetMethods

def Entry.isDirectory : Entry → Bool
  | .directory _ => true
  | _ => false

def Entry.isLink : Entry → Bool
  | .link _ => true
  | _ => false

namespace FileTree

variable {t : FileTree} {follow : Bool} {start l : Location} {xs : List String} {path : String}

/-- Every entry has proper names and lies in a directory. -/
structure IsTree (t : FileTree) : Prop where
  names : ∀ l entry, t.get? l = some entry → ∀ name ∈ l, IsName name
  parents : ∀ l entry, t.get? l = some entry → ∃ mode, t.entry? l.dropLast = some (.directory mode)

theorem isTree_iff : t.IsTree ↔ ∀ e ∈ t.entries,
    (∀ name ∈ e.1, IsName name) ∧ (t.entry? e.1.dropLast).any Entry.isDirectory = true := by
  have hdirectory : ∀ entry? : Option Entry,
      entry?.any Entry.isDirectory = true ↔ ∃ mode, entry? = some (.directory mode) := by
    intro entry?
    cases entry? with
    | none => simp
    | some entry => cases entry <;> simp [Entry.isDirectory]
  simp only [hdirectory]
  constructor
  · rintro ht ⟨l, entry⟩ he
    have hget := Dict.mem_entries_iff.1 he
    exact ⟨ht.names l entry hget, ht.parents l entry hget⟩
  · intro h
    exact ⟨fun l entry hl => (h (l, entry) (Dict.mem_entries_iff.2 hl)).1,
      fun l entry hl => (h (l, entry) (Dict.mem_entries_iff.2 hl)).2⟩

instance : Decidable t.IsTree := decidable_of_iff _ isTree_iff.symm

/-- No entry of the name is a link. -/
def Unlinked (t : FileTree) (name : String) : Prop :=
  ∀ dir target, t.get? (dir ++ [name]) ≠ some (.link target)

theorem unlinked_iff {name : String} : t.Unlinked name ↔
    ∀ e ∈ t.entries, e.1.getLast? = some name → e.2.isLink = false := by
  constructor
  · rintro h ⟨l, entry⟩ he hlast
    obtain ⟨dir, rfl⟩ := List.getLast?_eq_some_iff.1 hlast
    cases entry with
    | link target => exact absurd (Dict.mem_entries_iff.1 he) (h dir target)
    | file contents mode => rfl
    | directory mode => rfl
  · intro h dir target hlink
    have hfalse := h _ (Dict.mem_entries_iff.2 hlink) List.getLast?_concat
    cases hfalse

instance (name : String) : Decidable (t.Unlinked name) := decidable_of_iff _ unlinked_iff.symm

theorem IsTree.directory_above (ht : t.IsTree) {names : List String} {entry : Entry}
    (h : t.get? (l ++ names) = some entry) (hn : names ≠ []) :
    ∃ mode, t.entry? l = some (.directory mode) := by
  -- from the entry upwards
  induction names using List.reverseRecOn generalizing entry with
  | nil => exact absurd rfl hn
  | append_singleton names name ih =>
    obtain ⟨mode, hparent⟩ := ht.parents _ _ h
    rw [← List.append_assoc, List.dropLast_concat] at hparent
    by_cases hnil : names = []
    · rw [hnil, List.append_nil] at hparent
      exact ⟨mode, hparent⟩
    · rw [entry?_of_ne_nil (by simp [hnil])] at hparent
      exact ih hparent hnil

/-- An entry below a directory that a path leads to is found by the names that lead there. -/
theorem IsTree.locate_joinAll (ht : t.IsTree) {base : String} {names : List String}
    {contents : ByteArray} {mode : Nat} (hbase : t.locate true base = .ok (.found l))
    (h : t.get? (l ++ names) = some (.file contents mode)) (hn : names ≠ []) :
    t.locate true (Path.joinAll base names) = .ok (.found (l ++ names)) := by
  -- from the base downwards, one directory at a time
  induction names generalizing base l with
  | nil => exact absurd rfl hn
  | cons name rest ih =>
    obtain ⟨dirMode, hdir⟩ := ht.directory_above h hn
    have hname : IsName name := ht.names _ _ h name (by simp)
    have happend : l ++ name :: rest = l ++ [name] ++ rest := by simp
    rw [happend] at h ⊢
    have hstep : t.locate true (Path.join base name) = .ok (.found (l ++ [name])) := by
      refine locate_join hname hbase ?_
      rw [descend_cons_directory hdir hname]
      by_cases hnil : rest = []
      · rw [hnil, List.append_nil] at h
        rw [entry?_of_ne_nil (by simp), h]
        rfl
      · obtain ⟨mode, hnext⟩ := ht.directory_above h hnil
        rw [hnext]
        rfl
    by_cases hnil : rest = []
    · rw [hnil, List.append_nil]
      exact hstep
    · exact ih hstep h hnil

theorem entry?_nil_ne_none (t : FileTree) : t.entry? [] ≠ none := Option.some_ne_none _

theorem IsTree.entry?_dropLast_ne_none (ht : t.IsTree) (h : t.entry? l ≠ none) :
    t.entry? l.dropLast ≠ none := by
  by_cases hnil : l = []
  · rw [hnil]
    exact t.entry?_nil_ne_none
  · rw [entry?_of_ne_nil hnil] at h
    obtain ⟨entry, hentry⟩ := Option.ne_none_iff_exists'.1 h
    obtain ⟨mode, hparent⟩ := ht.parents _ _ hentry
    rw [hparent]
    exact Option.some_ne_none _

/-- The stop is at an entry, in a directory that there is, or at a free name. -/
def Grounded (t : FileTree) : Stop → Prop
  | .place (.found l) => t.entry? l ≠ none
  | .place (.vacant _) => True
  | .link dir _ _ => t.entry? dir ≠ none

theorem IsTree.grounded (ht : t.IsTree) {stop : Stop} (hstart : t.entry? start ≠ none)
    (h : Descends t follow start xs stop) : t.Grounded stop := by
  induction h with
  | here => exact hstart
  | idle _ _ _ ih => exact ih hstart
  | up _ _ ih => exact ih (ht.entry?_dropLast_ne_none hstart)
  | down _ hnext _ ih => exact ih (by simp [hnext])
  | free _ _ => trivial
  | lastLink _ hnext _ => simp [Grounded, hnext]
  | link _ _ _ => exact hstart

theorem IsTree.entry?_of_found (ht : t.IsTree) (h : t.locate follow path = .ok (.found l)) :
    t.entry? l ≠ none := by
  refine locate_induction (P := fun start _ => t.entry? start ≠ none)
    (Q := fun place => place = .found l → t.entry? l ≠ none) t.entry?_nil_ne_none ?_ ?_ h rfl
  · rintro start xs place hstart hd rfl
    exact ht.grounded hstart hd
  · intro start xs dir target rest hstart hd
    split
    · exact t.entry?_nil_ne_none
    · exact ht.grounded hstart hd

/-! ## What is found -/

theorem locate_of_find (h : t.find follow path = .ok l) : t.locate follow path = .ok (.found l) := by
  unfold find at h
  split at h
  · cases h
  · cases h
  · next hplace =>
    cases h
    exact hplace

/-- What a path leads to is found through it too, unless it is a link itself. -/
theorem locate_true_of_find (h : t.find false path = .ok l)
    (hlink : ∀ target, t.entry? l ≠ some (.link target)) : t.locate true path = .ok (.found l) := by
  have hfalse := locate_of_find h
  rcases t.locate_true_or path with hsame | ⟨l', target, hplace, htarget⟩
  · rw [hsame, hfalse]
  · rw [hfalse] at hplace
    cases hplace
    exact absurd htarget (hlink target)

end FileTree

end ResetMethods
