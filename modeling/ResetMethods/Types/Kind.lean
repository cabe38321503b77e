/-!
# ResetMethods.Types.Kind

The basic types.

* `BasicKind.name`, `BasicKind.ofName?` : spelling and reading. `unsafe.Pointer`, the type of `nil`
  and the invalid type have a spelling, but no identifier denotes them.
* `BasicKind.zeroLiteral` : a literal that every variable of the kind can be set to.
-/

namespace ResetMethods

/-- A basic type. `byte` and `uint8` are kept apart, and so are `rune` and `int32`: each is printed
the way it was written. -/
inductive BasicKind where
  | bool
  | string
  | int
  | int8
  | int16
  | int32
  | int64
  | uint
  | uint8
  | uint16
  | uint32
  | uint64
  | uintptr
  | float32
  | float64
  | complex64
  | complex128
  | byte
  | rune
  | unsafePointer
  | untypedNil
  | invalid
  deriving DecidableEq, Repr, Inhabited

namespace BasicKind

def all : List BasicKind :=
  [bool, string, int, int8, int16, int32, int64, uint, uint8, uint16, uint32, uint64, uintptr,
    float32, float64, complex64, complex128, byte, rune, unsafePointer, untypedNil, invalid]

def name : BasicKind → String
  | bool => "bool"
  | string => "string"
  | int => "int"
  | int8 => "int8"
  | int16 => "int16"
  | int32 => "int32"
  | int64 => "int64"
  | uint => "uint"
  | uint8 => "uint8"
  | uint16 => "uint16"
  | uint32 => "uint32"
  | uint64 => "uint64"
  | uintptr => "uintptr"
  | float32 => "float32"
  | float64 => "float64"
  | complex64 => "complex64"
  | complex128 => "complex128"
  | byte => "byte"
  | rune => "rune"
  | unsafePointer => "unsafe.Pointer"
  | untypedNil => "untyped nil"
  | invalid => "invalid type"

/-- Whether a predeclared identifier denotes the kind. -/
def isPredeclared : BasicKind → Bool
  | unsafePointer | untypedNil | invalid => false
  | _ => true

def ofName? (ident : String) : Option BasicKind :=
  all.find? fun k => k.isPredeclared && k.name == ident

def isNumeric : BasicKind → Bool
  | bool | string | unsafePointer | untypedNil | invalid => false
  | _ => true

def zeroLiteral (k : BasicKind) : String :=
  match k with
  | string => "\"\""
  | bool => "false"
  | _ => if k.isNumeric then "0" else "nil"

theorem mem_all (k : BasicKind) : k ∈ all := by
  cases k <;> decide

/-- The spelling of a predeclared kind is read back as that kind. -/
theorem ofName?_name {k : BasicKind} (h : k.isPredeclared = true) : ofName? k.name = some k := by
  cases k <;> first | rfl | cases h

end BasicKind
end ResetMethods
