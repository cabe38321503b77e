import ResetMethods.Proofs.Generation.Targets
import ResetMethods.Proofs.Layout.Printed
import ResetMethods.Run

/-!
# ResetMethods.Proofs.Layout.Generated

A generated file is laid out already.

* `AliasTable.Ok`: all aliases are identifiers, and all import paths can stand in quotes. Binding
  keeps it (`Viewpoint.ok_bindAll`).
* `AliasTable.exists_block`: the import block.
* `GeneratedSource.text_eq`: a file is its parts with blank lines between them.
* `Load.WellNamed`, `LoadedPackage.Prints`: what the text of a file is made of.
* `LoadedPackage.generated_formatted`: the formatter returns the text of a file as it is.
-/

namespace ResetMethods

open Layout

theorem Dict.mem_ofList_values {κ ν : Type} [Ord κ] [Std.TransOrd κ] [Std.LawfulEqOrd κ]
    {l : List (κ × ν)} {v : ν} (h : v ∈ (ofList l).values) : ∃ k, (k, v) ∈ l := by
  have hfold : ∀ (l : List (κ × ν)) (d : Dict κ ν) (e : κ × ν),
      e ∈ (l.foldl (fun d e => d.insert e.1 e.2) d).entries → e ∈ d.entries ∨ e ∈ l := by
    intro l
    induction l with
    | nil => exact fun d e h => .inl h
    | cons head rest ih =>
      intro d e h
      obtain h | h := ih (d.insert head.1 head.2) e h
      · obtain rfl | h := mem_insertEntry h
        · exact .inr List.mem_cons_self
        · exact .inl h
      · exact .inr (List.mem_cons_of_mem _ h)
  obtain ⟨e, he, rfl⟩ := List.mem_map.1 h
  obtain h | h := hfold l empty e he
  · cases h
  · exact ⟨e.1, h⟩

/-! ## Import aliases -/

structure AliasBinding.Ok (b : AliasBinding) : Prop where
  aliasName : IsWord b.aliasName
  path : IsPath b.path

def AliasTable.Ok (t : AliasTable) : Prop := ∀ b ∈ t.bindings, b.Ok

section Aliases

variable {v : Viewpoint} {t : AliasTable} {package : PackageRef}

theorem AliasTable.Ok.bind (h : t.Ok) (hp : package.Ok) (nameKnown : Bool) :
    (t.bind package nameKnown).Ok := by
  unfold AliasTable.bind
  split
  · exact h
  · intro b hb
    obtain hb | hb := List.mem_append.1 hb
    · exact h b hb
    · rw [List.mem_singleton] at hb
      rw [hb]
      exact ⟨hp.name.fresh _, hp.path⟩

theorem Viewpoint.ok_bind (h : t.Ok) (hp : package.Ok) : (v.bind t package).Ok := by
  unfold Viewpoint.bind
  split
  · exact h
  · exact h.bind hp _

theorem Viewpoint.ok_bindAll {packages : List PackageRef} (h : t.Ok)
    (hp : ∀ p ∈ packages, p.Ok) : (v.bindAll t packages).Ok := by
  induction packages generalizing t with
  | nil => exact h
  | cons package rest ih =>
    obtain ⟨hpackage, hrest⟩ := List.forall_mem_cons.1 hp
    exact ih (ok_bind h hpackage) hrest

theorem AliasTable.Ok.alias? (h : t.Ok) {path aliasName : String}
    (ha : t.alias? path = some aliasName) : IsWord aliasName := by
  unfold AliasTable.alias? at ha
  obtain ⟨b, hb, rfl⟩ := Option.map_eq_some_iff.1 ha
  exact (h b (List.mem_of_find?_eq_some hb)).aliasName

/-- Qualifiers change nothing for the scanner. -/
theorem AliasTable.Ok.qualifies (h : t.Ok) : Qualifies (v.qualifier t) := by
  intro package hp
  unfold Viewpoint.qualifier
  split
  · exact Neutral.nil
  · have hdot : Neutral ".".toList := neutral_literal rfl
    refine Neutral.concat ?_ hdot
    cases ha : t.alias? package.path with
    | none => exact hp.name.neutral
    | some aliasName => exact (h.alias? ha).neutral

end Aliases

/-! ## The import block -/

theorem IsPath.quotable {path : String} (h : IsPath path) : Quotable '"' path.toList := by
  unfold IsPath at h
  revert h
  generalize path.toList = text
  intro h
  induction text with
  | nil => exact .nil
  | cons c cs ih =>
    obtain ⟨⟨hq, hb, hn⟩, h⟩ := List.forall_mem_cons.1 h
    exact .char hq hb hn (ih h)

theorem IsPath.neutral {path : String} (h : IsPath path) :
    Neutral ("\"" ++ path ++ "\"").toList := by
  have hq := h.quotable.neutral (.inl rfl)
  simpa using hq

theorem ends_quote (text : String) : Ends (text ++ "\"").toList := by
  have hquote : Ends "\"".toList := ends_literal rfl
  exact hquote.concat _

theorem AliasBinding.Ok.exists_line {b : AliasBinding} (h : b.Ok) :
    ∃ l : Line, b.line = l.render ∧ Steady ['('] l ['('] := by
  have hpath := h.path.neutral
  have hspace : Neutral " ".toList := neutral_literal rfl
  unfold AliasBinding.line
  simp only
  split
  · refine ⟨⟨1, b.aliasName ++ " \"" ++ b.path ++ "\""⟩, ?_, .code rfl ?_ ?_ (ends_quote _)⟩
    · rw [← String.toList_inj]
      simp [Line.render]
    · have hn := h.aliasName.neutral.append (hspace.append hpath)
      simpa using hn
    · exact ((h.aliasName.starts.concat _).concat _).concat _
  · refine ⟨⟨1, "\"" ++ b.path ++ "\""⟩, ?_, .code rfl hpath ?_ (ends_quote _)⟩
    · rw [← String.toList_inj]
      simp [Line.render]
    · have hquote : Starts "\"".toList := starts_literal rfl
      exact (hquote.concat _).concat _

theorem exists_lines {bs : List AliasBinding} (h : ∀ b ∈ bs, b.Ok) :
    ∃ ls : List Line, String.join (bs.map (·.line)) = renderLines ls ∧
      ∀ l ∈ ls, Steady ['('] l ['('] := by
  induction bs with
  | nil => exact ⟨[], rfl, by simp⟩
  | cons b rest ih =>
    obtain ⟨hb, hrest⟩ := List.forall_mem_cons.1 h
    obtain ⟨l, hl, hsteady⟩ := hb.exists_line
    obtain ⟨ls, hls, hall⟩ := ih hrest
    refine ⟨l :: ls, ?_, List.forall_mem_cons.2 ⟨hsteady, hall⟩⟩
    rw [List.map_cons, String.join_cons, hl, hls, renderLines, renderLines, List.map_cons,
      String.join_cons]

theorem AliasTable.Ok.byAlias {t : AliasTable} (h : t.Ok) : ∀ b ∈ t.byAlias, b.Ok := by
  intro b hb
  obtain ⟨k, hk⟩ := Dict.mem_ofList_values hb
  obtain ⟨b', hb', he⟩ := List.mem_map.1 hk
  cases he
  exact h b hb'

/-- The import block is a block of lines. -/
theorem AliasTable.Ok.exists_block {t : AliasTable} (h : t.Ok) (hn : t.bindings.isEmpty = false) :
    ∃ ls : List Line, t.render = renderLines ls ∧ Block ls := by
  obtain ⟨ls, hls, hsteady⟩ := exists_lines h.byAlias
  have hword : Neutral "import ".toList := neutral_literal rfl
  have hstarts : Starts "import ".toList := starts_literal rfl
  have hopen : Steady [] ⟨0, "import ("⟩ ['('] := .opening rfl rfl hword hstarts rfl
  have hclose : Steady ['('] ⟨0, ")"⟩ [] := .closing rfl rfl rfl
  refine ⟨⟨0, "import ("⟩ :: ls ++ [⟨0, ")"⟩], ?_, ?_, ?_⟩
  · rw [render, hn, hls, ← List.singleton_append, renderLines_append, renderLines_append]
    rfl
  · exact ⟨_, _, rfl, starts_literal rfl⟩
  · intro rest hrest previous
    have hend : ∀ previous, Settled ['('] previous (⟨0, ")"⟩ :: rest) := fun _ =>
      .cons hclose (hrest _ ⟨_, rfl, by decide⟩)
    rw [List.cons_append, List.cons_append, List.append_assoc, List.singleton_append]
    exact .cons hopen (.run hsteady hend _)

/-- The import block as it stands in a file, where there may be none. -/
theorem AliasTable.Ok.exists_blocks {t : AliasTable} (h : t.Ok) :
    ∃ blocks : List (List Line),
      (if t.render.isEmpty then [] else [t.render]) = blocks.map renderLines ∧
        ∀ b ∈ blocks, Block b := by
  cases hn : t.bindings.isEmpty with
  | true =>
    refine ⟨[], ?_, by simp⟩
    rw [render, hn]
    rfl
  | false =>
    obtain ⟨ls, hls, hblock⟩ := h.exists_block hn
    cases he : t.render.isEmpty with
    | true => exact ⟨[], rfl, by simp⟩
    | false => exact ⟨[ls], by simp [hls], by simpa using hblock⟩

/-! ## The parts of a file -/

/-- A file is its banner, its package clause, its imports if there are some, and its methods, with
blank lines between them. -/
theorem GeneratedSource.text_eq {g : GeneratedSource} (h : g.methods ≠ []) :
    g.text = Text.join "\n" ((banner ++ "\n") :: ("package " ++ g.package ++ "\n") ::
      ((if g.imports.isEmpty then [] else [g.imports]) ++ g.methods)) := by
  obtain ⟨m, rest, hm⟩ := List.exists_cons_of_ne_nil h
  rw [text, hm, ← String.toList_inj]
  cases g.imports.isEmpty with
  | true => simp [Text.join]
  | false => simp [Text.join]

theorem block_banner : Block [⟨0, banner⟩] := by
  have hcomment : banner.toList = '/' :: '/' :: banner.toList.drop 2 := by decide
  have hsteady : Steady [] ⟨0, banner⟩ [] := by
    refine ⟨rfl, ?_, ends_literal rfl, by decide, fun n => ?_⟩
    · exact (starts_literal rfl).exists_visible
    · rw [hcomment, scanCode]
  exact .line hsteady (starts_literal rfl) ⟨_, rfl, by decide⟩

theorem IsWord.opensBlock_append {name : String} (h : IsWord name) (front : List Char) :
    opensBlock (front ++ name.toList) = false := by
  have hw := h.all _ (List.getLast_mem h.ne_nil)
  have ho := (isPlain_iff.1 (isPlain_of_isWordChar hw)).2.2.2.2.1
  simp only [isOpener, Bool.or_eq_false_iff, beq_eq_false_iff_ne] at ho
  have hlast : (front ++ name.toList).getLast? = some (name.toList.getLast h.ne_nil) := by
    rw [List.getLast?_append, List.getLast?_eq_some_getLast h.ne_nil, Option.some_or]
  simp [opensBlock, hlast, ho]

theorem block_package {name : String} (h : IsWord name) : Block [⟨0, "package " ++ name⟩] := by
  have hfront : Neutral "package ".toList := neutral_literal rfl
  have hstart : Starts "package ".toList := starts_literal rfl
  have hn : Neutral ("package " ++ name).toList := hfront.concat h.neutral
  have hs : Starts ("package " ++ name).toList := hstart.concat _
  have he : Ends ("package " ++ name).toList := h.ends.concat _
  refine .line (.code rfl hn hs he) hs ⟨_, rfl, ?_⟩
  rw [chars, String.toList_append, ← List.append_assoc]
  exact h.opensBlock_append _

/-! ## Generated files -/

structure Declaration.WellNamed (d : Declaration) : Prop where
  name : IsWord d.name
  rhs : ∀ a ∈ d.rhs.atoms, a.WellNamed

/-- All names of a load are identifiers, and all import paths can stand in quotes. -/
structure Load.WellNamed (load : Load) : Prop where
  packages : ∀ package ∈ load.packages, IsWord package.source.name
  declarations : ∀ d ∈ load.table.values, d.WellNamed

namespace LoadedPackage

/-- What the types are made of that the methods of the package print. -/
def Prints (package : LoadedPackage) (s : Surroundings) (a : Atom) : Prop :=
  ∃ m ∈ package.methods s, ∃ st ∈ m.body, ∃ ty ∈ st.types, a ∈ ty.atoms

variable {package : LoadedPackage} {s : Surroundings} {P : Atom → Prop}

theorem receiver_isWord (package : LoadedPackage) : IsWord package.receiver := by
  have hobj : IsWord preferredReceiver := isWord_literal rfl
  exact hobj.fresh _

/-- What the methods print has been declared. -/
theorem Prints.declared {a : Atom} (h : package.Prints s a) (ht : s.table.Declares P) : P a := by
  obtain ⟨m, hm, st, hst, ty, hty, ha⟩ := h
  obtain ⟨target, -, n, -, hn⟩ := mem_methods_iff.1 hm
  obtain ⟨-, -, hbody⟩ := ResetMethod.exists_declaration hn ht
  obtain ⟨field, -, hconcerns⟩ := hbody st hst
  exact hconcerns.types ty hty a ha

theorem ok_of_mem_methods (hd : ∀ d ∈ s.table.values, d.WellNamed) {m : ResetMethod}
    (hm : m ∈ package.methods s) : m.Ok := by
  obtain ⟨target, -, n, -, hn⟩ := mem_methods_iff.1 hm
  have ht : s.table.Declares Atom.WellNamed := fun d h => (hd d h).rhs
  obtain ⟨hreceiver, ⟨d, hmem, htype⟩, hbody⟩ := ResetMethod.exists_declaration hn ht
  have hword := package.receiver_isWord
  refine ⟨hreceiver ▸ hword, htype ▸ (hd d hmem).name, fun st hst e he => ?_⟩
  obtain ⟨field, hfield, hconcerns⟩ := hbody st hst
  obtain ⟨hr, hf⟩ := hconcerns.operands e he
  exact ⟨hr ▸ hword, hf ▸ hfield⟩

theorem ok_aliases (hp : ∀ p, package.Prints s (.package p) → p.Ok) :
    (package.aliases s).Ok := by
  refine Viewpoint.ok_bindAll (fun b hb => nomatch hb) fun p hmem => ?_
  obtain ⟨m, hm, hmem⟩ := List.mem_flatMap.1 hmem
  obtain ⟨st, hst, hmem⟩ := List.mem_flatMap.1 hmem
  obtain ⟨ty, hty, hmem⟩ := List.mem_flatMap.1 hmem
  obtain ha | rfl := Ty.package_mem_atoms ty hmem
  · exact hp p ⟨m, hm, st, hst, ty, hty, ha⟩
  · exact PackageRef.ok_unsafePackage

theorem block_of_mem_methods (hd : ∀ d ∈ s.table.values, d.WellNamed)
    (ha : ∀ a, package.Prints s a → a.Ok) {m : ResetMethod} (hm : m ∈ package.methods s) :
    Block (m.lines ((package.viewpoint s.table).spell (package.aliases s))) := by
  have haliases : (package.aliases s).Ok := ok_aliases fun p => ha (.package p)
  refine ResetMethod.block (ok_of_mem_methods hd hm) fun st hst ty hty => ?_
  exact Ty.spell_neutral haliases.qualifies ty fun a hmem => ha a ⟨m, hm, st, hst, ty, hty, hmem⟩

/-- The text of a generated file as blocks of lines. -/
theorem exists_blocks (hname : IsWord package.source.name)
    (hd : ∀ d ∈ s.table.values, d.WellNamed) (ha : ∀ a, package.Prints s a → a.Ok)
    (hm : package.methods s ≠ []) :
    ∃ blocks, (package.generated s).text = renderLines (separated blocks) ∧
      ∀ b ∈ blocks, Block b := by
  have haliases : (package.aliases s).Ok := ok_aliases fun p => ha (.package p)
  obtain ⟨imports, himports, hblocks⟩ := haliases.exists_blocks
  let spell := (package.viewpoint s.table).spell (package.aliases s)
  refine ⟨[⟨0, banner⟩] :: [⟨0, "package " ++ package.source.name⟩] ::
    (imports ++ (package.methods s).map (·.lines spell)), ?_, ?_⟩
  · have hline : ∀ text, renderLines [⟨0, text⟩] = text ++ "\n" := by
      intro text
      simp [renderLines, Line.render]
    rw [GeneratedSource.text_eq (by simpa [generated] using hm), renderLines_separated,
      List.map_cons, List.map_cons, List.map_append, ← himports, hline, hline, List.map_map]
    rfl
  · refine List.forall_mem_cons.2 ⟨block_banner, List.forall_mem_cons.2
      ⟨block_package hname, List.forall_mem_append.2 ⟨hblocks, ?_⟩⟩⟩
    intro b hb
    obtain ⟨m, hmem, rfl⟩ := List.mem_map.1 hb
    exact block_of_mem_methods hd ha hmem

/-- The text of a generated file is laid out already: where all names are identifiers, import paths
can stand in quotes, and the lengths and tags that the methods print are closed, the formatter
accepts the file and returns it as it is. -/
theorem generated_formatted {σ : Type} {load : Load} {package : LoadedPackage}
    (hw : load.WellNamed) (hp : package ∈ load.packages)
    (hm : package.methods load.surroundings ≠ [])
    (ht : ∀ text, package.Prints load.surroundings (.text text) → Closed text.toList) (state : σ) :
    canonicalFormatter (package.generated load.surroundings).text.toUTF8 state =
      (.ok (package.generated load.surroundings).text.toUTF8, state) := by
  have hdeclared : load.surroundings.table.Declares Atom.WellNamed := fun d h =>
    (hw.declarations d h).rhs
  have hprinted : ∀ a, package.Prints load.surroundings a → a.Ok := by
    intro a ha
    have hnamed := ha.declared hdeclared
    cases a with
    | name n => exact hnamed
    | package p => exact hnamed
    | text t => exact ht t ha
  obtain ⟨blocks, htext, hblocks⟩ :=
    exists_blocks (hw.packages package hp) hw.declarations hprinted hm
  rw [htext, canonicalFormatter, (settled_separated hblocks none).canonicalBytes]

end LoadedPackage

/-! ## A sample -/

namespace LayoutSample

/-- A struct with an array, a tag in a field of a field, and a type of a package that is not at
hand. -/
def structType : TypeExpr :=
  .struct
    [⟨["Sizes"], .array "4" (.ident "int"), none⟩,
      ⟨["Inner"], .struct [⟨["X"], .ident "int", some "`json:\"x\"`"⟩], none⟩,
      ⟨["Other"], .qualified "lib" "T", none⟩]

def file : SourceFile :=
  ⟨"/p/p.go", "p", [⟨none, "example.com/lib"⟩],
    [.types ⟨some ⟨[directive]⟩, false, [⟨none, "S", [], false, structType, 3⟩]⟩]⟩

def source : SourcePackage := ⟨"p", "p", "/p", ["/p/p.go"], [file]⟩

def load : Load := .ofSources [source]

def package : LoadedPackage := ⟨source, source.definitions⟩

def fields : List (Field Ty) :=
  [⟨"Sizes", .array "4" (.basic .int), false, none, "p"⟩,
    ⟨"Inner", .struct [⟨"X", .basic .int, false, some "`json:\"x\"`", "p"⟩], false, none, "p"⟩,
    ⟨"Other", .named ⟨some ⟨"example.com/lib", "lib"⟩, "T", []⟩, false, none, "p"⟩]

theorem values_eq : load.table.values =
    [.error, ⟨some ⟨"p", "p"⟩, "S", [], false, .struct fields, []⟩] := by
  rfl

theorem atoms_eq : (Ty.struct fields).atoms =
    [.name "Sizes", .text "4", .name "Inner", .name "X", .text "`json:\"x\"`", .name "Other",
      .package ⟨"example.com/lib", "lib"⟩, .name "T"] := by
  rfl

theorem closed_tag : Closed "`json:\"x\"`".toList := by
  have htag : Closed (rawQuote :: "json:\"x\"".toList ++ rawQuote :: []) :=
    .raw (by decide) (by decide) .nil
  exact htag

theorem ok_atoms : ∀ a ∈ (Ty.struct fields).atoms, a.Ok := by
  have hlength : Closed "4".toList := .char (by decide) .nil
  have hlib : PackageRef.Ok ⟨"example.com/lib", "lib"⟩ :=
    ⟨isWord_literal rfl, isPath_literal rfl⟩
  rw [atoms_eq]
  simp only [List.forall_mem_cons]
  refine ⟨?_, hlength, ?_, ?_, closed_tag, ?_, hlib, ?_, by simp⟩
  all_goals exact isWord_literal rfl

theorem wellNamed : load.WellNamed := by
  have herror : Declaration.error.WellNamed :=
    ⟨isWord_literal rfl, List.forall_mem_singleton.2 (isWord_literal rfl)⟩
  have hstruct : Declaration.WellNamed ⟨some ⟨"p", "p"⟩, "S", [], false, .struct fields, []⟩ :=
    ⟨isWord_literal rfl, fun a ha => (ok_atoms a ha).wellNamed⟩
  refine ⟨?_, ?_⟩
  · intro p hp
    rw [List.mem_singleton.1 hp]
    exact isWord_literal rfl
  · rw [values_eq]
    exact List.forall_mem_cons.2 ⟨herror, List.forall_mem_singleton.2 hstruct⟩

theorem closed_texts {text : String} (h : package.Prints load.surroundings (.text text)) :
    Closed text.toList := by
  have hdeclared : load.surroundings.table.Declares Atom.Ok := by
    unfold TypeTable.Declares
    rw [show load.surroundings.table.values = _ from values_eq]
    refine List.forall_mem_cons.2 ⟨?_, List.forall_mem_singleton.2 ok_atoms⟩
    exact List.forall_mem_singleton.2 (isWord_literal rfl)
  exact h.declared hdeclared

end LayoutSample

/-- The method for a struct with an array, a tag and an imported type. -/
theorem LoadedPackage.generated_formatted_sample :
    canonicalFormatter
        (LayoutSample.package.generated LayoutSample.load.surroundings).text.toUTF8 () =
      (.ok (LayoutSample.package.generated LayoutSample.load.surroundings).text.toUTF8, ()) := by
  have hmethods : (LayoutSample.package.methods LayoutSample.load.surroundings).length = 1 := by rfl
  have hemitted : LayoutSample.package.methods LayoutSample.load.surroundings ≠ [] := by
    intro hnil
    rw [hnil] at hmethods
    cases hmethods
  exact generated_formatted LayoutSample.wellNamed List.mem_cons_self hemitted
    (fun _ htext => LayoutSample.closed_texts htext) ()

end ResetMethods
