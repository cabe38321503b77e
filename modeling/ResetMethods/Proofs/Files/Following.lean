import ResetMethods.Files.Tree
import ResetMethods.Proofs.Text.Cutting

/-!
# ResetMethods.Proofs.Files.Following

Where paths lead in a file tree.

* `IsName`: a name that stands for one step down. `Path.segments_join`: a path below a base ends in
  the name, behind the segments of the base.
* `FileTree.Descends`: all that a step along a path can do.
* `FileTree.descend_append`, `locateWithin_append`: to follow a longer path is to follow its front
  and then the rest, unless a link comes in between.
* `FileTree.locate_induction`, `locate_end`: what is kept step by step, and from link to link, holds
  where the path leads. So a path that ends in a name leads to an entry of that name, unless a link
  has the name (`locate_last`).
-/

namespace ResetMethods

/-! ## Paths -/

/-- A name that a segment can have that goes down. -/
structure IsName (name : String) : Prop where
  not_idle : Path.isIdle name = false
  not_up : name ≠ ".."
  no_slash : '/' ∉ name.toList

theorem isName_iff {name : String} :
    IsName name ↔ Path.isIdle name = false ∧ name ≠ ".." ∧ '/' ∉ name.toList :=
  ⟨fun h => ⟨h.not_idle, h.not_up, h.no_slash⟩, fun h => ⟨h.1, h.2.1, h.2.2⟩⟩

instance (name : String) : Decidable (IsName name) := decidable_of_iff _ isName_iff.symm

namespace Path

variable {name : String}

theorem segments_of_isName (h : IsName name) : segments name = [name] := by
  rw [segments, Text.pieces_of_not_mem h.no_slash, List.map_singleton, String.ofList_toList]

/-- The path of a name below a base: the segments of the base come first, but for idle ones at its
end, and the name comes last. -/
theorem segments_join (h : IsName name) (base : String) :
    ∃ front tail, segments base = front ++ tail ∧ (∀ s ∈ tail, isIdle s = true) ∧
      segments (join base name) = front ++ [name] := by
  have hname := segments_of_isName h
  by_cases hempty : base = ""
  · subst hempty
    refine ⟨[], [""], rfl, by simp [isIdle], ?_⟩
    have hjoin : join "" name = name := by simp [join]
    rw [hjoin]
    exact hname
  · by_cases hslash : endsInSlash base = true
    · obtain ⟨front, hfront⟩ : ∃ front, base.toList = front ++ ['/'] := by
        rw [endsInSlash, beq_iff_eq] at hslash
        exact List.getLast?_eq_some_iff.1 hslash
      refine ⟨(Text.pieces '/' front).map .ofList, [""], ?_, by simp [isIdle], ?_⟩
      · rw [segments, hfront, Text.pieces_append, List.map_append]
        rfl
      · have hjoin : join base name = base ++ name := by simp [join, hslash]
        rw [hjoin, segments, String.toList_append, hfront, List.append_assoc, List.singleton_append,
          Text.pieces_append, List.map_append]
        rw [segments] at hname
        rw [hname]
    · have hjoin : join base name = base ++ "/" ++ name := by simp [join, hslash, hempty]
      refine ⟨segments base, [], (List.append_nil _).symm, by simp, ?_⟩
      have hlist : (base ++ "/" ++ name).toList = base.toList ++ '/' :: name.toList := by simp
      rw [hjoin, segments, hlist, Text.pieces_append, List.map_append]
      rw [segments] at hname
      rw [hname]
      rfl

theorem join_ne_empty (h : IsName name) (base : String) : join base name ≠ "" := by
  intro hjoin
  obtain ⟨front, -, -, -, hsegments⟩ := segments_join h base
  rw [hjoin] at hsegments
  have hlast := congrArg List.getLast? hsegments
  have hidle := h.not_idle
  rw [List.getLast?_concat] at hlast
  cases hlast
  cases hidle

end Path

def Place.location : Place → Location
  | .found location => location
  | .vacant location => location

namespace FileTree

variable {t : FileTree} {follow : Bool} {start l m : Location} {xs ys : List String}
  {name path : String}

/-! ## Steps -/

/-- The segment goes down from a directory. -/
structure Enters (t : FileTree) (l : Location) (s : String) : Prop where
  directory : ∃ mode, t.entry? l = some (.directory mode)
  not_idle : Path.isIdle s = false
  not_up : s ≠ ".."

/-- How segments are followed from a location to a stop. -/
inductive Descends (t : FileTree) (follow : Bool) : Location → List String → Stop → Prop where
  | here {l : Location} : Descends t follow l [] (.place (.found l))
  | idle {l : Location} {mode : Nat} {s : String} {rest : List String} {stop : Stop} :
      t.entry? l = some (.directory mode) → Path.isIdle s = true → Descends t follow l rest stop →
      Descends t follow l (s :: rest) stop
  | up {l : Location} {mode : Nat} {rest : List String} {stop : Stop} :
      t.entry? l = some (.directory mode) → Descends t follow l.dropLast rest stop →
      Descends t follow l (".." :: rest) stop
  | down {l : Location} {s : String} {entry : Entry} {rest : List String} {stop : Stop} :
      t.Enters l s → t.entry? (l ++ [s]) = some entry → Descends t follow (l ++ [s]) rest stop →
      Descends t follow l (s :: rest) stop
  | free {l : Location} {s : String} :
      t.Enters l s → t.entry? (l ++ [s]) = none →
      Descends t follow l [s] (.place (.vacant (l ++ [s])))
  | lastLink {l : Location} {s target : String} :
      t.Enters l s → t.entry? (l ++ [s]) = some (.link target) → follow = false →
      Descends t follow l [s] (.place (.found (l ++ [s])))
  | link {l : Location} {s target : String} {rest : List String} :
      t.Enters l s → t.entry? (l ++ [s]) = some (.link target) → (rest = [] → follow = true) →
      Descends t follow l (s :: rest) (.link l target rest)

theorem descends {stop : Stop} (h : t.descend follow start xs = .ok stop) :
    Descends t follow start xs stop := by
  induction xs generalizing start with
  | nil =>
    cases h
    exact .here
  | cons s rest ih =>
    rw [descend] at h
    split at h
    · next mode hdir =>
      by_cases hidle : Path.isIdle s = true
      · rw [if_pos hidle] at h
        exact .idle hdir hidle (ih h)
      · rw [if_neg hidle] at h
        by_cases hup : s = ".."
        · subst hup
          rw [if_pos rfl] at h
          exact .up hdir (ih h)
        · rw [if_neg hup] at h
          have henters : t.Enters start s := ⟨⟨mode, hdir⟩, by simpa using hidle, hup⟩
          cases hnext : t.entry? (start ++ [s]) with
          | none =>
            cases rest with
            | cons _ _ => simp [hnext] at h
            | nil =>
              simp only [hnext] at h
              cases h
              exact .free henters hnext
          | some next =>
            cases next with
            | file contents mode =>
              simp only [hnext] at h
              exact .down henters hnext (ih h)
            | directory mode =>
              simp only [hnext] at h
              exact .down henters hnext (ih h)
            | link target =>
              simp only [hnext] at h
              split at h
              · next hlast =>
                rw [Bool.and_eq_true, Bool.not_eq_true'] at hlast
                obtain rfl := List.isEmpty_iff.1 hlast.1
                cases h
                exact .lastLink henters hnext hlast.2
              · next hlast =>
                cases h
                refine .link henters hnext fun hnil => ?_
                simpa [hnil] using hlast
    · cases h

/-- The end of some segments is followed on its own, or stands behind a link. -/
theorem Descends.split {stop : Stop} (h : Descends t follow start (xs ++ ys) stop) (hys : ys ≠ []) :
    (∃ l, Descends t follow l ys stop) ∨
      ∃ dir target rest, stop = .link dir target (rest ++ ys) := by
  induction xs generalizing start with
  | nil => exact .inl ⟨start, h⟩
  | cons s rest ih =>
    -- the last segment of all is not in the front, so no step of the front is a last one
    generalize hzs : rest ++ ys = zs at ih
    rw [List.cons_append, hzs] at h
    have hne : zs ≠ [] := by
      rw [← hzs]
      simp [hys]
    cases h with
    | idle _ _ hrest => exact ih hrest
    | up _ hrest => exact ih hrest
    | down _ _ hrest => exact ih hrest
    | free _ _ => exact absurd rfl hne
    | lastLink _ _ _ => exact absurd rfl hne
    | link _ _ _ => exact .inr ⟨_, _, rest, by rw [hzs]⟩

/-! ## Fronts of paths -/

theorem descend_cons_directory {mode : Nat} (h : t.entry? start = some (.directory mode))
    (hn : IsName name) (rest : List String) :
    t.descend follow start (name :: rest) =
      match t.entry? (start ++ [name]) with
      | none => if rest.isEmpty then .ok (.place (.vacant (start ++ [name]))) else .error .notFound
      | some (.link target) =>
        if rest.isEmpty && !follow then .ok (.place (.found (start ++ [name])))
        else .ok (.link start target rest)
      | some _ => t.descend follow (start ++ [name]) rest := by
  rw [descend, h]
  have hidle : ¬ Path.isIdle name = true := by simp [hn.not_idle]
  exact (if_neg hidle).trans (if_neg hn.not_up)

/-- The front of a path is followed first. Its own last segment is followed too, since something
comes behind it. -/
theorem descend_append (t : FileTree) (follow : Bool) (start : Location) (xs : List String)
    (hys : ys ≠ []) :
    t.descend follow start (xs ++ ys) =
      match t.descend true start xs with
      | .error e => .error e
      | .ok (.place (.found l)) => t.descend follow l ys
      | .ok (.place (.vacant _)) => .error .notFound
      | .ok (.link dir target rest) => .ok (.link dir target (rest ++ ys)) := by
  have hempty : ∀ rest : List String, (rest ++ ys).isEmpty = false := by
    intro rest
    simp [hys]
  induction xs generalizing start with
  | nil => rfl
  | cons s rest ih =>
    rw [List.cons_append, descend, descend]
    cases t.entry? start with
    | none => rfl
    | some entry =>
      cases entry with
      | file contents mode => rfl
      | link target => rfl
      | directory mode =>
        simp only
        split
        · exact ih start
        · split
          · exact ih start.dropLast
          · cases t.entry? (start ++ [s]) with
            | none =>
              rw [hempty]
              cases rest <;> rfl
            | some next =>
              cases next with
              | link target => simp [hempty]
              | file contents mode => exact ih (start ++ [s])
              | directory mode => exact ih (start ++ [s])

theorem descend_idle {tail : List String} (h : ∀ s ∈ tail, Path.isIdle s = true) {stop : Stop}
    (hd : t.descend follow start tail = .ok stop) : stop = .place (.found start) := by
  induction tail with
  | nil =>
    cases hd
    rfl
  | cons s rest ih =>
    obtain ⟨hs, hrest⟩ := List.forall_mem_cons.1 h
    rw [descend] at hd
    split at hd
    · rw [if_pos hs] at hd
      exact ih hrest hd
    · cases hd

/-- The same with nothing behind the front, which may then lead to a free name. -/
theorem descend_true_append (t : FileTree) (start : Location) (xs ys : List String) :
    t.descend true start (xs ++ ys) =
      match t.descend true start xs with
      | .error e => .error e
      | .ok (.place (.found l)) => t.descend true l ys
      | .ok (.place (.vacant l)) =>
        if ys.isEmpty then .ok (.place (.vacant l)) else .error .notFound
      | .ok (.link dir target rest) => .ok (.link dir target (rest ++ ys)) := by
  cases ys with
  | nil =>
    rw [List.append_nil]
    cases t.descend true start xs with
    | error e => rfl
    | ok stop =>
      cases stop with
      | place p => cases p <;> rfl
      | link dir target rest => simp
  | cons y ys => exact descend_append t true start xs (List.cons_ne_nil y ys)

/-- A path that goes on where another one leads to a directory, which may end in idle segments. -/
theorem locateWithin_append {fuel : Nat} {tail : List String} {place : Place}
    (htail : ∀ s ∈ tail, Path.isIdle s = true)
    (hfront : t.locateWithin true fuel start (xs ++ tail) = .ok (.found l))
    (hys : ys ≠ []) (h : t.descend follow l ys = .ok (.place place)) :
    t.locateWithin follow fuel start (xs ++ ys) = .ok place := by
  induction fuel generalizing start xs with
  | zero => cases hfront
  | succ fuel ih =>
    rw [locateWithin, descend_true_append] at hfront
    rw [locateWithin, descend_append t follow start xs hys]
    cases hd : t.descend true start xs with
    | error e =>
      rw [hd] at hfront
      cases hfront
    | ok stop =>
      rw [hd] at hfront
      cases stop with
      | link dir target rest =>
        -- the target comes before what is left of the front, and both paths go on from there
        simp only [← List.append_assoc] at hfront ⊢
        exact ih hfront
      | place p =>
        cases p with
        | vacant l' => cases tail <;> cases hfront
        | found l' =>
          simp only at hfront ⊢
          cases hidle : t.descend true l' tail with
          | error e =>
            rw [hidle] at hfront
            cases hfront
          | ok stop =>
            obtain rfl := descend_idle htail hidle
            rw [hidle] at hfront
            cases hfront
            rw [h]

theorem locate_join {base : String} (hn : IsName name)
    (hbase : t.locate true base = .ok (.found l)) {place : Place}
    (h : t.descend follow l [name] = .ok (.place place)) :
    t.locate follow (Path.join base name) = .ok place := by
  obtain ⟨front, tail, hsegments, htail, hjoin⟩ := Path.segments_join hn base
  have hempty : (Path.join base name).isEmpty = false := by
    simpa using Path.join_ne_empty hn base
  rw [locate] at hbase
  split at hbase
  · cases hbase
  · rw [hsegments] at hbase
    rw [locate, hempty, hjoin]
    exact locateWithin_append htail hbase (List.cons_ne_nil _ _) h

/-! ## Ends of paths -/

/-- What holds of the first segments and is kept where a link is followed decides about the place
where a path leads. -/
theorem locate_induction {P : Location → List String → Prop} {Q : Place → Prop}
    (hfirst : P [] (Path.segments path))
    (hplace : ∀ start xs place, P start xs → Descends t follow start xs (.place place) → Q place)
    (hlink : ∀ start xs dir target rest, P start xs →
      Descends t follow start xs (.link dir target rest) →
      P (if Path.isAbsolute target then [] else dir) (Path.segments target ++ rest))
    {place : Place} (h : t.locate follow path = .ok place) : Q place := by
  -- on the number of links that may still be followed
  have hwithin : ∀ fuel start xs, P start xs → t.locateWithin follow fuel start xs = .ok place →
      Q place := by
    intro fuel
    induction fuel with
    | zero => exact fun _ _ _ h => nomatch h
    | succ fuel ih =>
      intro start xs hstart h
      rw [locateWithin] at h
      cases hd : t.descend follow start xs with
      | error e => simp [hd] at h
      | ok stop =>
        cases stop with
        | place p =>
          simp only [hd] at h
          cases h
          exact hplace start xs _ hstart (descends hd)
        | link dir target rest =>
          simp only [hd] at h
          exact ih _ _ (hlink start xs dir target rest hstart (descends hd)) h
  rw [locate] at h
  split at h
  · cases h
  · exact hwithin _ _ _ hfirst h

theorem Descends.entry?_of_vacant {stop : Stop} (h : Descends t follow start xs stop)
    (hstop : stop = .place (.vacant l)) : t.entry? l = none := by
  induction h with
  | free _ hnext =>
    cases hstop
    exact hnext
  | idle _ _ _ ih => exact ih hstop
  | up _ _ ih => exact ih hstop
  | down _ _ _ ih => exact ih hstop
  | here => cases hstop
  | lastLink _ _ _ => cases hstop
  | link _ _ _ => cases hstop

theorem entry?_of_vacant (h : t.locate follow path = .ok (.vacant l)) : t.entry? l = none := by
  refine locate_induction (P := fun _ _ => True)
    (Q := fun place => place = .vacant l → t.entry? l = none) trivial ?_ ?_ h rfl
  · intro start xs place _ hd hplace
    exact hd.entry?_of_vacant (congrArg Stop.place hplace)
  · exact fun _ _ _ _ _ _ _ => trivial

/-- To pass over a link at the end makes a difference only where there is one. -/
theorem descend_true_or (t : FileTree) (start : Location) (xs : List String) :
    t.descend true start xs = t.descend false start xs ∨
      ∃ l target, t.descend false start xs = .ok (.place (.found l)) ∧
        t.entry? l = some (.link target) := by
  induction xs generalizing start with
  | nil => exact .inl rfl
  | cons s rest ih =>
    rw [descend, descend]
    cases t.entry? start with
    | none => exact .inl rfl
    | some entry =>
      cases entry with
      | file contents mode => exact .inl rfl
      | link target => exact .inl rfl
      | directory mode =>
        simp only
        split
        · exact ih start
        · split
          · exact ih start.dropLast
          · cases hnext : t.entry? (start ++ [s]) with
            | none => exact .inl rfl
            | some next =>
              cases next with
              | file contents mode => exact ih (start ++ [s])
              | directory mode => exact ih (start ++ [s])
              | link target =>
                cases rest with
                | nil => exact .inr ⟨_, target, rfl, hnext⟩
                | cons _ _ => exact .inl rfl

theorem locate_true_or (t : FileTree) (path : String) :
    t.locate true path = t.locate false path ∨
      ∃ l target, t.locate false path = .ok (.found l) ∧ t.entry? l = some (.link target) := by
  have hwithin : ∀ fuel start xs,
      t.locateWithin true fuel start xs = t.locateWithin false fuel start xs ∨
        ∃ l target, t.locateWithin false fuel start xs = .ok (.found l) ∧
          t.entry? l = some (.link target) := by
    intro fuel
    induction fuel with
    | zero => exact fun _ _ => .inl rfl
    | succ fuel ih =>
      intro start xs
      rw [locateWithin, locateWithin]
      rcases descend_true_or t start xs with hsame | ⟨l, target, hfound, hlink⟩
      · rw [hsame]
        cases t.descend false start xs with
        | error e => exact .inl rfl
        | ok stop =>
          cases stop with
          | place p => exact .inl rfl
          | link dir target rest => exact ih _ _
      · exact .inr ⟨l, target, by rw [hfound], hlink⟩
  unfold locate
  split
  · exact .inl rfl
  · exact hwithin _ _ _

/-- What is true of every place that the end of a path leads to is true of the place where the path
leads. -/
theorem locate_end {Q : Place → Prop} (hys : ys ≠ []) (hxs : Path.segments path = xs ++ ys)
    (hend : ∀ l stop, Descends t follow l ys stop → ∃ place, stop = .place place ∧ Q place)
    {place : Place} (h : t.locate follow path = .ok place) : Q place := by
  -- whatever links come in between, the segments still to follow end in `ys`
  refine locate_induction (P := fun _ xs => ∃ front, xs = front ++ ys) ⟨xs, hxs⟩ ?_ ?_ h
  · rintro start _ place ⟨front, rfl⟩ hd
    rcases hd.split hys with ⟨l, hd⟩ | ⟨dir, target, rest, hstop⟩
    · obtain ⟨p, hp, hq⟩ := hend l _ hd
      cases hp
      exact hq
    · cases hstop
  · rintro start _ dir target rest ⟨front, rfl⟩ hd
    rcases hd.split hys with ⟨l, hd⟩ | ⟨dir, target, rest', hstop⟩
    · obtain ⟨p, hp, -⟩ := hend l _ hd
      cases hp
    · cases hstop
      exact ⟨_, (List.append_assoc _ _ _).symm⟩

/-- A path that ends in a name leads to a place of that name, unless a link of that name is
followed. -/
theorem locate_last (hn : IsName name)
    (hlink : follow = true → ∀ dir target, t.entry? (dir ++ [name]) ≠ some (.link target))
    (hxs : Path.segments path = xs ++ [name]) {place : Place}
    (h : t.locate follow path = .ok place) : place.location.getLast? = some name := by
  refine locate_end (Q := fun place => place.location.getLast? = some name)
    (List.cons_ne_nil _ _) hxs ?_ h
  intro l stop hd
  cases hd with
  | idle _ hidle _ =>
    rw [hn.not_idle] at hidle
    cases hidle
  | up _ _ => exact absurd rfl hn.not_up
  | down _ _ hrest =>
    cases hrest
    exact ⟨_, rfl, List.getLast?_concat⟩
  | free _ _ => exact ⟨_, rfl, List.getLast?_concat⟩
  | lastLink _ _ _ => exact ⟨_, rfl, List.getLast?_concat⟩
  | link _ hnext hfollow => exact absurd hnext (hlink (hfollow rfl) _ _)

theorem directory_of_idle_end {s : String} (hs : Path.isIdle s = true)
    (hxs : Path.segments path = xs ++ [s]) (h : t.locate follow path = .ok (.found l)) :
    ∃ mode, t.entry? l = some (.directory mode) := by
  refine locate_end (Q := fun place => ∃ mode, t.entry? place.location = some (.directory mode))
    (List.cons_ne_nil _ _) hxs ?_ h
  intro l stop hd
  have hentered : ∀ {l}, ¬ t.Enters l s := by
    intro l henters
    rw [henters.not_idle] at hs
    cases hs
  cases hd with
  | @idle _ mode _ _ _ hdir _ hrest =>
    cases hrest
    exact ⟨_, rfl, mode, hdir⟩
  | up _ _ => cases hs
  | down henters _ _ => exact absurd henters hentered
  | free henters _ => exact absurd henters hentered
  | lastLink henters _ _ => exact absurd henters hentered
  | link henters _ _ => exact absurd henters hentered

theorem locate_fileName {contents : ByteArray} {mode : Nat}
    (h : t.locate false path = .ok (.found l)) (hfile : t.entry? l = some (.file contents mode))
    (hname : Path.fileName? path = some name) (hup : name ≠ "..") : l.getLast? = some name := by
  obtain ⟨xs, s, hxs⟩ : ∃ xs s, Path.segments path = xs ++ [s] := by
    have hne : Path.segments path ≠ [] := by
      simpa [Path.segments] using Text.pieces_ne_nil '/' path.toList
    exact ⟨_, _, (List.dropLast_concat_getLast hne).symm⟩
  -- an idle last segment is no part of the name, but it does not lead to a file either
  cases hs : Path.isIdle s with
  | true =>
    obtain ⟨mode', hdir⟩ := directory_of_idle_end hs hxs h
    rw [hdir] at hfile
    cases hfile
  | false =>
    have hsname : name = s := by
      rw [Path.fileName?, Path.components, hxs, List.filter_append] at hname
      simpa [hs, eq_comm] using hname
    subst hsname
    have hslash : '/' ∉ name.toList := by
      have hmem : name ∈ Path.segments path := by simp [hxs]
      obtain ⟨p, hp, rfl⟩ := List.mem_map.1 hmem
      rw [String.toList_ofList]
      exact Text.not_mem_of_mem_pieces hp
    exact locate_last ⟨hs, hup, hslash⟩ (by simp) hxs h

theorem entry?_of_ne_nil (h : l ≠ []) : t.entry? l = t.get? l := by
  unfold entry?
  exact if_neg (by simpa using h)

end FileTree

end ResetMethods
