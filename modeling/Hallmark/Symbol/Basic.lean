/-!
# Symbols

A symbol as the table of an image describes it.
-/

namespace Hallmark

/-- Where a symbol is visible from. -/
inductive Binding where
  | fileLocal
  | global
  | weak
  | other
  deriving Repr, DecidableEq

/-- How far the visibility of a symbol is restricted. -/
inductive Visibility where
  | unrestricted
  | internal
  | hidden
  | shielded
  deriving Repr, DecidableEq

/-- The table that a symbol comes from. -/
inductive SymbolOrigin where
  | dynamic
  | static
  deriving Repr, DecidableEq

namespace Binding

/-- The binding in the high four bits of the information octet of a symbol. -/
def ofInfo (info : UInt8) : Binding :=
  match (info >>> 4).toNat with
  | 0 => fileLocal
  | 1 => global
  | 2 => weak
  | _ => other

/-- The name of a binding in reports. -/
def name : Binding → String
  | fileLocal => "Local"
  | global => "Global"
  | weak => "Weak"
  | other => "Other"

def all : List Binding := [fileLocal, global, weak, other]

end Binding

namespace Visibility

/-- The visibility in the low two bits of the other octet of a symbol. -/
def ofOther (other : UInt8) : Visibility :=
  match (other &&& 3).toNat with
  | 0 => unrestricted
  | 1 => internal
  | 2 => hidden
  | _ => shielded

/-- The name of a visibility in reports. -/
def name : Visibility → String
  | unrestricted => "Default"
  | internal => "Internal"
  | hidden => "Hidden"
  | shielded => "Protected"

def all : List Visibility := [unrestricted, internal, hidden, shielded]

end Visibility

/-- The name of an origin in reports. -/
def SymbolOrigin.name : SymbolOrigin → String
  | .dynamic => "Dynamic"
  | .static => "Static"

structure Symbol where
  name : String
  isFunction : Bool
  binding : Binding
  visibility : Visibility
  origin : SymbolOrigin
  deriving Repr, DecidableEq

namespace Symbol

/-- A global function without restrictions. -/
def function (name : String) (origin : SymbolOrigin) : Symbol :=
  ⟨name, true, .global, .unrestricted, origin⟩

/-- The symbol that the information and other octets of a record describe; functions have kind 2. -/
def ofOctets (name : String) (info other : UInt8) (origin : SymbolOrigin) : Symbol :=
  ⟨name, (info &&& 0xf) == 2, .ofInfo info, .ofOther other, origin⟩

end Symbol

structure SymbolTables where
  dynamic : List Symbol
  static : List Symbol
  deriving Repr, DecidableEq

namespace SymbolTables

/-- All symbols, the dynamic ones first. -/
def symbols (tables : SymbolTables) : List Symbol := tables.dynamic ++ tables.static

/-- True when neither table holds a symbol. -/
def isEmpty (tables : SymbolTables) : Bool := tables.dynamic.isEmpty && tables.static.isEmpty

end SymbolTables

end Hallmark
