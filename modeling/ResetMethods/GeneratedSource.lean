import ResetMethods.Text.Lines

/-!
# ResetMethods.GeneratedSource

The source text of one generated file.

* `banner` : its first line.
* `GeneratedSource.text` : banner, package clause, import block if there is one, and the methods
  with a blank line between neighbours.
* `GeneratedSource.front` : what stands before the methods.
-/

namespace ResetMethods

def banner : String := "// Code generated by reset; DO NOT EDIT."

/-- The parts of a generated file; a method's text ends with a line feed. -/
structure GeneratedSource where
  package : String
  imports : String
  methods : List String
  deriving DecidableEq, Repr, Inhabited

namespace GeneratedSource

def ofPackage (package : String) : GeneratedSource := ⟨package, "", []⟩

def addMethod (s : GeneratedSource) (method : String) : GeneratedSource :=
  { s with methods := s.methods ++ [method] }

def text (s : GeneratedSource) : String :=
  banner ++ "\n\npackage " ++ s.package ++ "\n\n" ++
    (if s.imports.isEmpty then "" else s.imports ++ "\n") ++ Text.join "\n" s.methods

def front (s : GeneratedSource) : String :=
  banner ++ "\n\npackage " ++ s.package ++ "\n\n" ++
    (if s.imports.isEmpty then "" else s.imports ++ "\n")

theorem text_eq_front (s : GeneratedSource) : s.text = s.front ++ Text.join "\n" s.methods := rfl

end GeneratedSource
end ResetMethods
