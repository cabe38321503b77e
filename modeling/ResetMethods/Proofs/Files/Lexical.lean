import Mathlib.Data.List.Infix
import ResetMethods.Proofs.Files.Trees

/-!
# ResetMethods.Proofs.Files.Lexical

Paths as texts and where they lead in a tree without links.

* `Path.segments_slashed`, `Path.slashed_injective`: names that are joined by slashes can be told
  apart again.
* `Path.components_joinAll`, `Path.components_ancestors`: the components of longer paths and of the
  directories that a path is written in.
* `Path.walk`: where components lead, a `..` one directory up. `Path.walk_passes`: on the way down
  to where it ends a walk passes through all that lies between.
* `Linkless.location_of_locate`: without links a path leads to where its components lead.
* `FileTree.Passes`: all fronts of a path are directories. Then its fronts are found too
  (`Passes.find`). `Linkless.passes_dropLast`: so it is in front of all that is found.
-/

namespace ResetMethods

/-! ## Texts -/

namespace Path

variable {root path base p : String} {xs ys rs names : List String} {l m : Location}

theorem no_slash_of_mem_segments {s : String} (h : s ∈ segments path) : '/' ∉ s.toList := by
  obtain ⟨piece, hpiece, rfl⟩ := List.mem_map.1 h
  rw [String.toList_ofList]
  exact Text.not_mem_of_mem_pieces hpiece

theorem segments_of_no_slash (h : '/' ∉ p.toList) : segments p = [p] := by
  rw [segments, Text.pieces_of_not_mem h, List.map_singleton, String.ofList_toList]

theorem segments_slashed_cons (p : String) (h : ∀ s ∈ xs, '/' ∉ s.toList) :
    segments (Text.join "/" (p :: xs)) = segments p ++ xs := by
  induction xs generalizing p with
  | nil => rw [Text.join, List.append_nil]
  | cons s rest ih =>
    obtain ⟨hs, hrest⟩ := List.forall_mem_cons.1 h
    have hlist : (p ++ "/" ++ Text.join "/" (s :: rest)).toList =
        p.toList ++ '/' :: (Text.join "/" (s :: rest)).toList := by
      simp
    have hsplit : segments (p ++ "/" ++ Text.join "/" (s :: rest)) =
        segments p ++ segments (Text.join "/" (s :: rest)) := by
      rw [segments, hlist, Text.pieces_append, List.map_append]
      rfl
    rw [Text.join, hsplit, ih s hrest, segments_of_no_slash hs, List.singleton_append]

/-- To cut a text at its slashes gives back the names that were joined. -/
theorem segments_slashed (hne : xs ≠ []) (h : ∀ s ∈ xs, '/' ∉ s.toList) :
    segments (Text.join "/" xs) = xs := by
  obtain ⟨s, rest, rfl⟩ := List.exists_cons_of_ne_nil hne
  obtain ⟨hs, hrest⟩ := List.forall_mem_cons.1 h
  rw [segments_slashed_cons s hrest, segments_of_no_slash hs, List.singleton_append]

theorem slashed_injective (hxs : ∀ s ∈ xs, '/' ∉ s.toList) (hys : ∀ s ∈ ys, '/' ∉ s.toList)
    (h : Text.join "/" (p :: xs) = Text.join "/" (p :: ys)) : xs = ys := by
  have hsegments := congrArg segments h
  rw [segments_slashed_cons p hxs, segments_slashed_cons p hys] at hsegments
  exact List.append_cancel_left hsegments

theorem slashed_ne_empty (hp : p ≠ "") (xs : List String) : Text.join "/" (p :: xs) ≠ "" := by
  cases xs with
  | nil => exact hp
  | cons s rest =>
    intro h
    have hlist := congrArg String.toList h
    simp [Text.join] at hlist

/-! ## Components -/

theorem not_idle_of_mem_components {s : String} (h : s ∈ components path) : isIdle s = false := by
  have hkept := List.of_mem_filter h
  simpa using hkept

theorem no_slash_of_mem_components {s : String} (h : s ∈ components path) : '/' ∉ s.toList :=
  no_slash_of_mem_segments (List.mem_of_mem_filter h)

theorem isName_of_mem_components {s : String} (h : s ∈ components path) (hup : s ≠ "..") :
    IsName s :=
  ⟨not_idle_of_mem_components h, hup, no_slash_of_mem_components h⟩

theorem components_join {name : String} (h : IsName name) (base : String) :
    components (join base name) = components base ++ [name] := by
  obtain ⟨front, tail, hbase, htail, hjoin⟩ := segments_join h base
  have hidle : tail.filter (fun s => !isIdle s) = [] := by
    rw [List.filter_eq_nil_iff]
    intro s hs
    simp [htail s hs]
  have hname : [name].filter (fun s => !isIdle s) = [name] := by simp [h.not_idle]
  rw [components, components, hjoin, hbase, List.filter_append, List.filter_append, hidle, hname,
    List.append_nil]

theorem components_joinAll (h : ∀ name ∈ names, IsName name) (base : String) :
    components (joinAll base names) = components base ++ names := by
  induction names generalizing base with
  | nil => simp [joinAll]
  | cons name rest ih =>
    obtain ⟨hname, hrest⟩ := List.forall_mem_cons.1 h
    have hall : joinAll base (name :: rest) = joinAll (join base name) rest := rfl
    rw [hall, ih hrest, components_join hname, List.append_assoc, List.singleton_append]

theorem filter_dropWhile_isIdle (rs : List String) :
    (rs.dropWhile isIdle).filter (fun s => !isIdle s) = rs.filter fun s => !isIdle s := by
  induction rs with
  | nil => rfl
  | cons s rest ih =>
    cases hs : isIdle s with
    | true => rw [List.dropWhile_cons_of_pos hs, ih, List.filter_cons_of_neg (by simp [hs])]
    | false => rw [List.dropWhile_cons_of_neg (by simp [hs])]

theorem segments_ofReversed (hne : rs ≠ []) (h : ∀ s ∈ rs, '/' ∉ s.toList) :
    segments (ofReversed rs) = rs.reverse := by
  rw [ofReversed]
  · exact segments_slashed (by simp [hne]) fun s hs => h s (List.mem_reverse.1 hs)
  · exact hne

theorem no_slash_of_mem_dropWhile (h : ∀ s ∈ rs, '/' ∉ s.toList) :
    ∀ s ∈ rs.dropWhile isIdle, '/' ∉ s.toList :=
  fun s hs => h s ((List.dropWhile_suffix _).subset hs)

theorem components_ofReversed (h : ∀ s ∈ rs, '/' ∉ s.toList) :
    components (ofReversed (rs.dropWhile isIdle)) = (rs.filter fun s => !isIdle s).reverse := by
  rw [← filter_dropWhile_isIdle rs]
  by_cases hnil : rs.dropWhile isIdle = []
  · rw [hnil]
    rfl
  · rw [components, segments_ofReversed hnil (no_slash_of_mem_dropWhile h), List.filter_reverse]

theorem ofReversed_ne_empty (h : ∀ s ∈ rs, '/' ∉ s.toList) :
    ofReversed (rs.dropWhile isIdle) ≠ "" := by
  intro hempty
  have hhead := List.head?_dropWhile_not isIdle rs
  by_cases hnil : rs.dropWhile isIdle = []
  · rw [hnil] at hempty
    revert hempty
    decide
  · -- the text of one empty segment, but the last segment is not idle
    have hsegments := segments_ofReversed hnil (no_slash_of_mem_dropWhile h)
    rw [hempty] at hsegments
    rw [← List.getLast?_reverse, ← hsegments] at hhead
    cases hhead

theorem tails_eq_cons (c : List String) : c.tails = c :: c.tails.tail := by
  cases c <;> rfl

/-- The directories above have ever fewer of the components. -/
theorem components_parents (h : ∀ s ∈ rs, '/' ∉ s.toList) :
    (parents rs).map components = (rs.filter fun s => !isIdle s).tails.tail.map List.reverse := by
  induction rs with
  | nil => rfl
  | cons s rest ih =>
    obtain ⟨-, hrest⟩ := List.forall_mem_cons.1 h
    rw [parents]
    cases hs : isIdle s with
    | true =>
      rw [if_pos rfl, ih hrest, List.filter_cons_of_neg (by simp [hs])]
    | false =>
      rw [if_neg (by simp), List.map_cons, components_ofReversed hrest, ih hrest,
        List.filter_cons_of_pos (by simp [hs]), List.tails_cons, List.tail_cons, ← List.map_cons,
        ← tails_eq_cons]

theorem no_slash_of_mem_reverse {s : String} (h : s ∈ (segments path).reverse) : '/' ∉ s.toList :=
  no_slash_of_mem_segments (List.mem_reverse.1 h)

theorem components_parents_segments (path : String) :
    (parents (segments path).reverse).map components =
      (components path).reverse.tails.tail.map List.reverse := by
  rw [components_parents fun s hs => no_slash_of_mem_reverse hs, List.filter_reverse]
  rfl

/-- A path and the directories that it is written in have the fronts of its components, the longest
first. -/
theorem components_ancestors (root : String) :
    (ancestors root).map components = (components root).inits.reverse := by
  have hinits : (components root).inits.reverse =
      (components root).reverse.tails.map List.reverse := by
    rw [List.inits_eq_tails, List.reverse_reverse]
  rw [ancestors, List.map_cons, components_parents_segments, hinits,
    tails_eq_cons (components root).reverse, List.map_cons, List.reverse_reverse, List.tail_cons]

theorem prefix_of_mem_ancestors {dir : String} (h : dir ∈ ancestors root) :
    components dir <+: components root := by
  have hmem : components dir ∈ (ancestors root).map components := List.mem_map_of_mem h
  rw [components_ancestors, List.mem_reverse, List.mem_inits] at hmem
  exact hmem

theorem ne_empty_of_mem_parents {dir : String} (hrs : ∀ s ∈ rs, '/' ∉ s.toList)
    (h : dir ∈ parents rs) : dir ≠ "" := by
  induction rs with
  | nil => cases h
  | cons s rest ih =>
    obtain ⟨-, hrest⟩ := List.forall_mem_cons.1 hrs
    rw [parents] at h
    split at h
    · exact ih hrest h
    · rcases List.mem_cons.1 h with rfl | h
      · exact ofReversed_ne_empty hrest
      · exact ih hrest h

theorem ne_empty_of_mem_ancestors {dir : String} (hroot : root ≠ "") (h : dir ∈ ancestors root) :
    dir ≠ "" := by
  rcases List.mem_cons.1 h with rfl | h
  · exact hroot
  · exact ne_empty_of_mem_parents (fun s hs => no_slash_of_mem_reverse hs) h

theorem components_parent? (path : String) :
    components ((parent? path).getD "") = (components path).dropLast := by
  have hhead := congrArg List.head? (components_parents_segments path)
  rw [List.head?_map, ← parent?] at hhead
  obtain hnil | ⟨front, last, hlast⟩ := List.eq_nil_or_concat (components path)
  · rw [hnil] at hhead ⊢
    cases hparent : parent? path with
    | none => rfl
    | some dir =>
      rw [hparent] at hhead
      cases hhead
  · rw [hlast] at hhead ⊢
    rw [List.concat_eq_append, List.reverse_concat, List.tails_cons, List.tail_cons, tails_eq_cons,
      List.map_cons, List.reverse_reverse, List.head?_cons] at hhead
    rw [List.concat_eq_append, List.dropLast_concat]
    obtain ⟨dir, hdir, hcomponents⟩ := Option.map_eq_some_iff.1 hhead
    rw [hdir]
    exact hcomponents

theorem parent?_ne_empty (h : components path ≠ []) : (parent? path).getD "" ≠ "" := by
  cases hparent : parent? path with
  | some dir =>
    exact ne_empty_of_mem_parents (fun s hs => no_slash_of_mem_reverse hs)
      (List.mem_of_head? hparent)
  | none =>
    have hparents := components_parents_segments path
    rw [List.head?_eq_none_iff.1 hparent] at hparents
    obtain ⟨front, last, hlast⟩ := (List.eq_nil_or_concat (components path)).resolve_left h
    rw [hlast, List.concat_eq_append, List.reverse_concat, List.tails_cons, List.tail_cons,
      tails_eq_cons] at hparents
    cases hparents

theorem relative?_of_append (h : components path = components base ++ names) :
    relative? base path = some names := by
  rw [relative?, h, Text.after?_append]

/-! ## Walks -/

/-- The location that a segment leads to from a directory. -/
def step (l : Location) (s : String) : Location :=
  if isIdle s then l else if s = ".." then l.dropLast else l ++ [s]

/-- The location that segments lead to, one directory after the other. -/
def walk (l : Location) (xs : List String) : Location := xs.foldl step l

theorem step_idle {s : String} (h : isIdle s = true) (l : Location) : step l s = l := if_pos h

theorem step_up (l : Location) : step l ".." = l.dropLast := rfl

theorem step_down {s : String} (hidle : isIdle s = false) (hup : s ≠ "..") (l : Location) :
    step l s = l ++ [s] := by
  rw [step, if_neg (by simp [hidle]), if_neg hup]

theorem walk_cons (l : Location) (s : String) (xs : List String) :
    walk l (s :: xs) = walk (step l s) xs := rfl

theorem walk_append (l : Location) (xs ys : List String) :
    walk l (xs ++ ys) = walk (walk l xs) ys :=
  List.foldl_append

theorem walk_filter (l : Location) (xs : List String) :
    walk l (xs.filter fun s => !isIdle s) = walk l xs := by
  induction xs generalizing l with
  | nil => rfl
  | cons s rest ih =>
    cases hs : isIdle s with
    | true =>
      rw [List.filter_cons_of_neg (by simp [hs]), walk_cons, step_idle hs]
      exact ih l
    | false =>
      rw [List.filter_cons_of_pos (by simp [hs]), walk_cons]
      exact ih (step l s)

/-- Proper names lead down. -/
theorem walk_names (h : ∀ name ∈ names, IsName name) (l : Location) : walk l names = l ++ names := by
  induction names generalizing l with
  | nil => exact (List.append_nil l).symm
  | cons name rest ih =>
    obtain ⟨hname, hrest⟩ := List.forall_mem_cons.1 h
    rw [walk_cons, step_down hname.not_idle hname.not_up, ih hrest, List.append_assoc,
      List.singleton_append]

theorem walk_components (h : ".." ∉ components path) : walk [] (components path) = components path := by
  have hnames : ∀ s ∈ components path, IsName s := by
    intro s hs
    refine isName_of_mem_components hs ?_
    rintro rfl
    exact h hs
  rw [walk_names hnames, List.nil_append]

/-- On the way down to where it ends a walk passes through all that lies between. -/
theorem walk_passes (hl : l <+: m) (hm : m <+: walk l xs) : ∃ ys, ys <+: xs ∧ walk l ys = m := by
  -- from the end of the walk backwards, to the last time that it is at `m`
  induction xs using List.reverseRecOn with
  | nil => exact ⟨[], List.prefix_rfl, hl.eq_of_length_le hm.length_le⟩
  | append_singleton xs s ih =>
    have hshorter : m <+: walk l xs → ∃ ys, ys <+: xs ++ [s] ∧ walk l ys = m := by
      intro h
      obtain ⟨ys, hys, hwalk⟩ := ih h
      exact ⟨ys, hys.trans (List.prefix_append xs [s]), hwalk⟩
    have hlast : walk l (xs ++ [s]) = step (walk l xs) s := walk_append l xs [s]
    cases hs : isIdle s with
    | true =>
      rw [hlast, step_idle hs] at hm
      exact hshorter hm
    | false =>
      by_cases hup : s = ".."
      · subst hup
        rw [hlast, step_up] at hm
        exact hshorter (hm.trans (List.dropLast_prefix _))
      · rw [hlast, step_down hs hup, List.prefix_concat_iff] at hm
        rcases hm with hm | hm
        · refine ⟨xs ++ [s], List.prefix_rfl, ?_⟩
          rw [hlast, step_down hs hup, hm]
        · exact hshorter hm

end Path

/-! ## Trees without links -/

namespace FileTree

variable {t : FileTree} {follow : Bool} {l m : Location} {xs ys names : List String}
  {root path : String}

/-- No entry is a link. -/
def Linkless (t : FileTree) : Prop := ∀ l target, t.get? l ≠ some (.link target)

theorem linkless_iff : t.Linkless ↔ ∀ e ∈ t.entries, e.2.isLink = false := by
  constructor
  · rintro h ⟨l, entry⟩ he
    cases entry with
    | link target => exact absurd (Dict.mem_entries_iff.1 he) (h l target)
    | file contents mode => rfl
    | directory mode => rfl
  · intro h l target hlink
    have hfalse := h _ (Dict.mem_entries_iff.2 hlink)
    cases hfalse

instance : Decidable t.Linkless := decidable_of_iff _ linkless_iff.symm

theorem Linkless.entry?_ne (h : t.Linkless) (l : Location) (target : String) :
    t.entry? l ≠ some (.link target) := by
  by_cases hnil : l = []
  · rw [hnil]
    intro hlink
    cases hlink
  · rw [entry?_of_ne_nil hnil]
    exact h l target

theorem Linkless.walk_of_descends (hlinks : t.Linkless) {stop : Stop}
    (h : Descends t follow l xs stop) :
    ∃ place, stop = .place place ∧ place.location = Path.walk l xs := by
  have hdown : ∀ {l : Location} {s : String}, t.Enters l s → Path.step l s = l ++ [s] := by
    intro l s henters
    exact Path.step_down henters.not_idle henters.not_up l
  induction h with
  | here => exact ⟨_, rfl, rfl⟩
  | idle _ hs _ ih =>
    rw [Path.walk_cons, Path.step_idle hs]
    exact ih
  | up _ _ ih => exact ih
  | down henters _ _ ih =>
    rw [Path.walk_cons, hdown henters]
    exact ih
  | free henters _ => exact ⟨_, rfl, (hdown henters).symm⟩
  | lastLink _ hlink _ => exact absurd hlink (hlinks.entry?_ne _ _)
  | link _ hlink _ => exact absurd hlink (hlinks.entry?_ne _ _)

/-- Without links a path is followed to its end in one go. -/
theorem Linkless.descends_of_locate (hlinks : t.Linkless) {place : Place}
    (h : t.locate follow path = .ok place) :
    Descends t follow [] (Path.segments path) (.place place) := by
  refine locate_induction (P := fun start xs => start = [] ∧ xs = Path.segments path)
    (Q := fun place => Descends t follow [] (Path.segments path) (.place place)) ⟨rfl, rfl⟩ ?_ ?_ h
  · rintro _ _ place ⟨rfl, rfl⟩ hd
    exact hd
  · intro start xs dir target rest _ hd
    obtain ⟨place, hstop, -⟩ := hlinks.walk_of_descends hd
    cases hstop

/-- Without links a path leads to where its components lead. -/
theorem Linkless.location_of_locate (hlinks : t.Linkless) {place : Place}
    (h : t.locate follow path = .ok place) :
    place.location = Path.walk [] (Path.components path) := by
  obtain ⟨found, hstop, hlocation⟩ := hlinks.walk_of_descends (hlinks.descends_of_locate h)
  cases hstop
  rw [hlocation]
  exact (Path.walk_filter [] (Path.segments path)).symm

theorem Linkless.location_of_find (hlinks : t.Linkless) (h : t.find follow path = .ok l) :
    l = Path.walk [] (Path.components path) :=
  hlinks.location_of_locate (locate_of_find h)

/-! ## Directories on the way -/

/-- There is a directory at the end of each front of the segments. -/
def Passes (t : FileTree) (l : Location) (xs : List String) : Prop :=
  ∀ ys, ys <+: xs → ∃ mode, t.entry? (Path.walk l ys) = some (.directory mode)

theorem Passes.directory (h : t.Passes l xs) :
    ∃ mode, t.entry? (Path.walk l xs) = some (.directory mode) :=
  h xs List.prefix_rfl

theorem Passes.front (h : t.Passes l xs) (hys : ys <+: xs) : t.Passes l ys :=
  fun zs hzs => h zs (hzs.trans hys)

theorem passes_cons {s : String} : t.Passes l (s :: xs) ↔
    (∃ mode, t.entry? l = some (.directory mode)) ∧ t.Passes (Path.step l s) xs := by
  constructor
  · intro h
    exact ⟨h [] List.nil_prefix, fun ys hys => h (s :: ys) (List.cons_prefix_cons.2 ⟨rfl, hys⟩)⟩
  · rintro ⟨hfirst, hrest⟩ ys hys
    rcases List.prefix_cons_iff.1 hys with rfl | ⟨zs, rfl, hzs⟩
    · exact hfirst
    · exact hrest zs hzs

theorem passes_append : t.Passes l (xs ++ ys) ↔ t.Passes l xs ∧ t.Passes (Path.walk l xs) ys := by
  induction xs generalizing l with
  | nil =>
    refine ⟨fun h => ⟨h.front List.nil_prefix, h⟩, fun h => h.2⟩
  | cons s rest ih =>
    rw [List.cons_append, passes_cons, passes_cons, ih, and_assoc]
    rfl

theorem passes_filter : t.Passes l (xs.filter fun s => !Path.isIdle s) ↔ t.Passes l xs := by
  induction xs generalizing l with
  | nil => rfl
  | cons s rest ih =>
    cases hs : Path.isIdle s with
    | true =>
      rw [List.filter_cons_of_neg (by simp [hs]), ih, passes_cons, Path.step_idle hs]
      exact ⟨fun h => ⟨h [] List.nil_prefix, h⟩, fun h => h.2⟩
    | false =>
      rw [List.filter_cons_of_pos (by simp [hs]), passes_cons, passes_cons, ih]

theorem Passes.descend (h : t.Passes l xs) :
    t.descend follow l xs = .ok (.place (.found (Path.walk l xs))) := by
  induction xs generalizing l with
  | nil => rfl
  | cons s rest ih =>
    obtain ⟨⟨mode, hdir⟩, hrest⟩ := passes_cons.1 h
    rw [Path.walk_cons, ← ih hrest, FileTree.descend, hdir]
    cases hs : Path.isIdle s with
    | true => rw [Path.step_idle hs, if_pos rfl]
    | false =>
      by_cases hup : s = ".."
      · subst hup
        rw [Path.step_up]
        rfl
      · rw [Path.step_down hs hup] at hrest ⊢
        obtain ⟨mode, hnext⟩ := hrest [] List.nil_prefix
        have hnext : t.entry? (l ++ [s]) = some (.directory mode) := hnext
        simp only [Bool.false_eq_true, if_false, if_neg hup, hnext]

/-- A path is found where all that stands in front are directories. -/
theorem Passes.locate (h : t.Passes [] (Path.components path)) (hpath : path ≠ "") :
    t.locate follow path = .ok (.found (Path.walk [] (Path.components path))) := by
  have hwalk : Path.walk [] (Path.components path) = Path.walk [] (Path.segments path) :=
    Path.walk_filter [] (Path.segments path)
  have hempty : ¬ path.isEmpty = true := by simpa using hpath
  have hdescend : t.descend follow [] (Path.segments path) = _ := (passes_filter.1 h).descend
  rw [FileTree.locate, if_neg hempty, hwalk, locateWithin, hdescend]

theorem Passes.find (h : t.Passes [] (Path.components path)) (hpath : path ≠ "") :
    t.find follow path = .ok (Path.walk [] (Path.components path)) := by
  rw [FileTree.find, h.locate hpath]

theorem passes_of_descends {stop : Stop} (h : Descends t follow l xs stop)
    (hstop : stop = .place (.found m)) (hdir : ∃ mode, t.entry? m = some (.directory mode)) :
    t.Passes l xs := by
  induction h with
  | here =>
    cases hstop
    intro ys hys
    rw [List.prefix_nil.1 hys]
    exact hdir
  | idle hfirst hs _ ih =>
    rw [passes_cons, Path.step_idle hs]
    exact ⟨⟨_, hfirst⟩, ih hstop⟩
  | up hfirst _ ih => exact passes_cons.2 ⟨⟨_, hfirst⟩, ih hstop⟩
  | down henters _ _ ih =>
    rw [passes_cons, Path.step_down henters.not_idle henters.not_up]
    exact ⟨henters.directory, ih hstop⟩
  | free _ _ => cases hstop
  | lastLink _ hlink _ =>
    cases hstop
    obtain ⟨mode, hdir⟩ := hdir
    cases hlink.symm.trans hdir
  | link _ _ _ => cases hstop

/-- Where a path leads to a directory, it leads through directories. -/
theorem Linkless.passes (hlinks : t.Linkless) (h : t.locate follow path = .ok (.found l))
    (hdir : ∃ mode, t.entry? l = some (.directory mode)) : t.Passes [] (Path.components path) :=
  passes_filter.2 (passes_of_descends (hlinks.descends_of_locate h) rfl hdir)

theorem Descends.directory {stop : Stop} {s : String} (h : Descends t follow l (s :: xs) stop) :
    ∃ mode, t.entry? l = some (.directory mode) := by
  cases h with
  | idle hfirst _ _ => exact ⟨_, hfirst⟩
  | up hfirst _ => exact ⟨_, hfirst⟩
  | down henters _ _ => exact henters.directory
  | free henters _ => exact henters.directory
  | lastLink henters _ _ => exact henters.directory
  | link henters _ _ => exact henters.directory

theorem Linkless.passes_init (hlinks : t.Linkless) {stop : Stop} {s : String}
    (h : Descends t follow l (xs ++ [s]) stop) : t.Passes l xs := by
  induction xs generalizing l with
  | nil =>
    intro ys hys
    rw [List.prefix_nil.1 hys]
    exact h.directory
  | cons x rest ih =>
    refine passes_cons.2 ⟨h.directory, ?_⟩
    -- there is a segment behind, so no step is a last one
    generalize hzs : rest ++ [s] = zs at ih
    rw [List.cons_append, hzs] at h
    have hne : zs ≠ [] := by
      rw [← hzs]
      simp
    cases h with
    | idle _ hs hrest =>
      rw [Path.step_idle hs]
      exact ih hrest
    | up _ hrest => exact ih hrest
    | down henters _ hrest =>
      rw [Path.step_down henters.not_idle henters.not_up]
      exact ih hrest
    | free _ _ => exact absurd rfl hne
    | lastLink _ hlink _ => exact absurd hlink (hlinks.entry?_ne _ _)
    | link _ hlink _ => exact absurd hlink (hlinks.entry?_ne _ _)

/-- What a path leads to is reached from the directory that the path is written in. -/
theorem Linkless.passes_dropLast (hlinks : t.Linkless) {place : Place}
    (h : t.locate follow path = .ok place) : t.Passes [] (Path.components path).dropLast := by
  have hne : Path.segments path ≠ [] := by
    rw [Path.segments, ne_eq, List.map_eq_nil_iff]
    exact Text.pieces_ne_nil '/' path.toList
  obtain ⟨front, last, hsegments⟩ := (List.eq_nil_or_concat (Path.segments path)).resolve_left hne
  rw [List.concat_eq_append] at hsegments
  have hpasses : t.Passes [] (front.filter fun s => !Path.isIdle s) := by
    have hdescends := hlinks.descends_of_locate h
    rw [hsegments] at hdescends
    exact passes_filter.2 (hlinks.passes_init hdescends)
  rw [Path.components, hsegments, List.filter_append]
  cases hlast : Path.isIdle last with
  | true =>
    rw [List.filter_cons_of_neg (by simp [hlast]), List.filter_nil, List.append_nil]
    exact hpasses.front (List.dropLast_prefix _)
  | false =>
    rw [List.filter_cons_of_pos (by simp [hlast]), List.filter_nil, List.dropLast_concat]
    exact hpasses

/-- Names that lead to an entry lead through directories. -/
theorem IsTree.passes (ht : t.IsTree) {name : String} {entry : Entry}
    (h : t.get? (l ++ names ++ [name]) = some entry) : t.Passes l names := by
  have hnames : ∀ s ∈ names, IsName s := by
    intro s hs
    exact ht.names _ _ h s (by simp [hs])
  rintro ys ⟨zs, rfl⟩
  rw [Path.walk_names fun s hs => hnames s (List.mem_append_left zs hs)]
  have hbelow : t.get? (l ++ ys ++ (zs ++ [name])) = some entry := by simpa using h
  exact ht.directory_above hbelow (by simp)

end FileTree

end ResetMethods
