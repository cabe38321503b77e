import ResetMethods.Proofs.Dict
import ResetMethods.Proofs.Files.Following
import ResetMethods.Run

/-!
# ResetMethods.Proofs.Files.Rewriting

File trees before and after some files are written.

* `FileTree.Rewritten`: at some locations there is a file where there was a file or nothing; all
  else is as before.
* `Keeps`, `Rewritten.locate_keeps`: paths lead where they led before, but for free names that have
  become files.
* `FileTree.Writable`: a path that leads to a file or to a free name. `Writable.writeOutput`: it can
  be written.
* `FileTree.overwrite`: the tree after some files are written. `overwrite_overwrite`: to write them
  all again changes nothing.
-/

namespace ResetMethods

namespace FileTree

/-- At the locations there is a file in place of a file or of nothing. Nothing else differs. -/
structure Rewritten (ls : List Location) (t u : FileTree) : Prop where
  same : ∀ l, l ∉ ls → u.get? l = t.get? l
  before : ∀ l ∈ ls, t.entry? l = none ∨ ∃ contents mode, t.entry? l = some (.file contents mode)
  after : ∀ l ∈ ls, ∃ contents mode, u.entry? l = some (.file contents mode)

/-- The answer is the same, or an error where there was one, or a file that was a free name. -/
inductive Keeps {α : Type} (ls : List Location) (of : Place → α) :
    Except IoError α → Except IoError α → Prop where
  | same (answer : Except IoError α) : Keeps ls of answer answer
  | failed (e e' : IoError) : Keeps ls of (.error e) (.error e')
  | filled {l : Location} : l ∈ ls → Keeps ls of (.ok (of (.vacant l))) (.ok (of (.found l)))

variable {t u v : FileTree} {ls ms : List Location} {l : Location} {follow : Bool} {path : String}

namespace Rewritten

theorem entry?_eq (h : Rewritten ls t u) (hl : l ∉ ls) : u.entry? l = t.entry? l := by
  unfold entry?
  split
  · rfl
  · exact h.same l hl

theorem refl (t : FileTree) : Rewritten [] t t :=
  ⟨fun _ _ => rfl, by simp, by simp⟩

theorem trans (h : Rewritten ls t u) (h' : Rewritten ms u v) : Rewritten (ls ++ ms) t v := by
  refine ⟨fun l hl => ?_, fun l hl => ?_, fun l hl => ?_⟩
  · rw [List.mem_append, not_or] at hl
    rw [h'.same l hl.2, h.same l hl.1]
  · by_cases hmem : l ∈ ls
    · exact h.before l hmem
    · rw [← h.entry?_eq hmem]
      exact h'.before l ((List.mem_append.1 hl).resolve_left hmem)
  · by_cases hmem : l ∈ ms
    · exact h'.after l hmem
    · rw [h'.entry?_eq hmem]
      exact h.after l ((List.mem_append.1 hl).resolve_right hmem)

theorem descend_of_file (h : Rewritten ls t u) (hl : l ∈ ls) (rest : List String) :
    u.descend follow l rest =
      if rest.isEmpty then .ok (.place (.found l)) else .error .notDirectory := by
  obtain ⟨contents, mode, hfile⟩ := h.after l hl
  cases rest with
  | nil => rfl
  | cons s rest =>
    rw [descend, hfile]
    rfl

theorem descend_keeps (h : Rewritten ls t u) (follow : Bool) (start : Location) (xs : List String) :
    Keeps ls .place (t.descend follow start xs) (u.descend follow start xs) := by
  induction xs generalizing start with
  | nil => exact .same _
  | cons s rest ih =>
    by_cases hstart : start ∈ ls
    · -- neither tree has a directory there
      rw [h.descend_of_file hstart, descend]
      rcases h.before start hstart with hnone | ⟨contents, mode, hfile⟩
      · rw [hnone]
        exact .failed _ _
      · rw [hfile]
        exact .failed _ _
    · rw [descend, descend, h.entry?_eq hstart]
      cases t.entry? start with
      | none => exact .same _
      | some entry =>
        cases entry with
        | file contents mode => exact .same _
        | link target => exact .same _
        | directory mode =>
          simp only
          split
          · exact ih start
          · split
            · exact ih start.dropLast
            · by_cases hnext : start ++ [s] ∈ ls
              · obtain ⟨contents, mode, hfile⟩ := h.after _ hnext
                -- a free name has become a file, which ends the path, or a file is one still
                rcases h.before _ hnext with hnone | ⟨contents', mode', hold⟩
                · rw [hnone, hfile]
                  simp only [h.descend_of_file hnext]
                  cases rest with
                  | nil => exact .filled hnext
                  | cons _ _ => exact .failed _ _
                · rw [hold, hfile]
                  exact ih _
              · rw [h.entry?_eq hnext]
                cases t.entry? (start ++ [s]) with
                | none => exact .same _
                | some next =>
                  cases next with
                  | link target => exact .same _
                  | file contents mode => exact ih _
                  | directory mode => exact ih _

theorem locate_keeps (h : Rewritten ls t u) (follow : Bool) (path : String) :
    Keeps ls id (t.locate follow path) (u.locate follow path) := by
  have hwithin : ∀ fuel start xs,
      Keeps ls id (t.locateWithin follow fuel start xs) (u.locateWithin follow fuel start xs) := by
    intro fuel
    induction fuel with
    | zero => exact fun _ _ => .same _
    | succ fuel ih =>
      intro start xs
      rw [locateWithin, locateWithin]
      have hd := h.descend_keeps follow start xs
      generalize t.descend follow start xs = before at hd
      generalize u.descend follow start xs = after at hd
      cases hd with
      | failed e e' => exact .failed e e'
      | filled hl => exact .filled hl
      | same _ =>
        cases before with
        | error e => exact .same _
        | ok stop =>
          cases stop with
          | place p => exact .same _
          | link dir target rest => exact ih _ _
  unfold locate
  split
  · exact .same _
  · exact hwithin _ _ _

end Rewritten

/-! ## Writing -/

/-- The path leads to the location, which may be free. -/
def LeadsTo (t : FileTree) (path : String) (l : Location) : Prop :=
  ∃ place, t.locate true path = .ok place ∧ place.location = l

/-- The path leads to a free name or to a file. -/
inductive Writable (t : FileTree) (path : String) (l : Location) : Prop where
  | new : t.locate true path = .ok (.vacant l) → Writable t path l
  | old {contents : ByteArray} {mode : Nat} : t.locate true path = .ok (.found l) →
      t.entry? l = some (.file contents mode) → Writable t path l

theorem Writable.leadsTo (h : t.Writable path l) : t.LeadsTo path l := by
  cases h with
  | new h => exact ⟨_, h, rfl⟩
  | old h _ => exact ⟨_, h, rfl⟩

theorem Rewritten.leadsTo (h : Rewritten ls t u) (hl : u.LeadsTo path l) : t.LeadsTo path l := by
  obtain ⟨place, hplace, rfl⟩ := hl
  have hkeeps := h.locate_keeps true path
  rw [hplace] at hkeeps
  generalize hbefore : t.locate true path = before at hkeeps
  cases hkeeps with
  | same _ => exact ⟨place, hbefore, rfl⟩
  | filled _ => exact ⟨_, hbefore, rfl⟩

theorem Rewritten.writable (h : Rewritten ls t u) (hw : t.Writable path l) : u.Writable path l := by
  have hkeeps := h.locate_keeps true path
  generalize hafter : u.locate true path = after at hkeeps
  cases hw with
  | new hplace =>
    rw [hplace] at hkeeps
    cases hkeeps with
    | same _ => exact .new hafter
    | filled hl =>
      obtain ⟨contents, mode, hfile⟩ := h.after l hl
      exact .old hafter hfile
  | old hplace hold =>
    rw [hplace] at hkeeps
    cases hkeeps with
    | same _ =>
      by_cases hl : l ∈ ls
      · obtain ⟨contents, mode, hfile⟩ := h.after l hl
        exact .old hafter hfile
      · exact .old hafter ((h.entry?_eq hl).trans hold)

theorem Writable.entry?_cases (h : t.Writable path l) :
    t.entry? l = none ∨ ∃ contents mode, t.entry? l = some (.file contents mode) := by
  cases h with
  | new h => exact .inl (entry?_of_vacant h)
  | old _ h => exact .inr ⟨_, _, h⟩

theorem Writable.ne_nil (h : t.Writable path l) : l ≠ [] := by
  rintro rfl
  obtain hnone | ⟨contents, mode, hfile⟩ := h.entry?_cases
  · cases hnone
  · cases hfile

theorem Writable.rewritten (h : t.Writable path l) (contents : ByteArray) (mode : Nat) :
    Rewritten [l] t (t.insert l (.file contents mode)) := by
  refine ⟨fun l' hl' => ?_, fun l' hl' => ?_, fun l' hl' => ?_⟩
  · rw [Dict.get?_insert, if_neg (by simpa using hl')]
  · rw [List.mem_singleton.1 hl']
    exact h.entry?_cases
  · rw [List.mem_singleton.1 hl', entry?_of_ne_nil h.ne_nil, Dict.get?_insert, if_pos rfl]
    exact ⟨contents, mode, rfl⟩

theorem Writable.locate_insert (h : t.Writable path l) (contents : ByteArray) (mode : Nat) :
    FileTree.locate (t.insert l (.file contents mode)) true path = .ok (.found l) := by
  have hre := h.rewritten contents mode
  cases hre.writable h with
  | old hplace _ => exact hplace
  | new hplace =>
    obtain ⟨_, _, hfile⟩ := hre.after l List.mem_cons_self
    rw [entry?_of_vacant hplace] at hfile
    cases hfile

theorem modify_insert (t : FileTree) (l : Location) (contents : ByteArray) (mode mode' : Nat) :
    (t.insert l (.file contents mode)).modify l (withMode mode') =
      t.insert l (.file contents mode') := by
  refine Dict.ext_get? fun l' => ?_
  rw [Dict.get?_modify, Dict.get?_insert, Dict.get?_insert, Dict.get?_insert, if_pos rfl]
  split <;> rfl

theorem Writable.writeOutput (h : t.Writable path l) (contents : ByteArray) :
    t.writeOutput path contents = .ok (t.insert l (.file contents outputMode)) := by
  -- the bits that the file has in between are overwritten
  obtain ⟨mode, hwrite⟩ : ∃ mode, t.writeFile path contents =
      .ok (t.insert l (.file contents mode)) := by
    cases h with
    | new hplace => exact ⟨newFileMode, by rw [writeFile, hplace]⟩
    | @old _ mode hplace hfile => exact ⟨mode, by rw [writeFile, hplace]; simp only [hfile]⟩
  have hmode : setMode (t.insert l (.file contents mode)) path outputMode =
      .ok (t.insert l (.file contents outputMode)) := by
    rw [setMode, find, h.locate_insert contents mode]
    simp only [modify_insert]
  rw [FileTree.writeOutput, hwrite]
  exact hmode

theorem exists_writable {contents : ByteArray} (h : t.writeOutput path contents = .ok u) :
    ∃ l, t.Writable path l := by
  rw [FileTree.writeOutput, writeFile] at h
  cases hplace : t.locate true path with
  | error e => simp [hplace] at h
  | ok place =>
    cases place with
    | vacant l => exact ⟨l, .new hplace⟩
    | found l =>
      cases hentry : t.entry? l with
      | none => simp [hplace, hentry] at h
      | some entry =>
        cases entry with
        | file contents mode => exact ⟨l, .old hplace hentry⟩
        | directory mode => simp [hplace, hentry] at h
        | link target => simp [hplace, hentry] at h

/-! ## Several files -/

/-- The tree after some files are written, each with its contents and the permission bits of
output. -/
def overwrite (t : FileTree) (ws : List (Location × ByteArray)) : FileTree :=
  ws.foldl (fun t w => t.insert w.1 (.file w.2 outputMode)) t

variable {ws : List (Location × ByteArray)}

theorem get?_overwrite_of_not_mem (h : l ∉ ws.map (·.1)) : (t.overwrite ws).get? l = t.get? l := by
  induction ws generalizing t with
  | nil => rfl
  | cons w ws ih =>
    rw [List.map_cons, List.mem_cons, not_or] at h
    have hrest := ih (t := t.insert w.1 (.file w.2 outputMode)) h.2
    rw [Dict.get?_insert, if_neg h.1] at hrest
    exact hrest

/-- What is written does not depend on what was there. -/
theorem get?_overwrite_of_mem (h : l ∈ ws.map (·.1)) :
    (t.overwrite ws).get? l = (u.overwrite ws).get? l := by
  induction ws generalizing t u with
  | nil => cases h
  | cons w ws ih =>
    by_cases hrest : l ∈ ws.map (·.1)
    · exact ih hrest
    · have hl : l = w.1 := (List.mem_cons.1 h).resolve_right hrest
      have ht := get?_overwrite_of_not_mem (t := t.insert w.1 (.file w.2 outputMode)) hrest
      have hu := get?_overwrite_of_not_mem (t := u.insert w.1 (.file w.2 outputMode)) hrest
      rw [Dict.get?_insert, if_pos hl] at ht hu
      exact ht.trans hu.symm

theorem overwrite_overwrite (t : FileTree) (ws : List (Location × ByteArray)) :
    (t.overwrite ws).overwrite ws = t.overwrite ws := by
  refine Dict.ext_get? fun l => ?_
  by_cases h : l ∈ ws.map (·.1)
  · exact get?_overwrite_of_mem h
  · exact get?_overwrite_of_not_mem h

end FileTree

end ResetMethods
