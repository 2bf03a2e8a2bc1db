import Relay.Integer

/-!
# Shapes

A shape describes how a value is built: from primitives and the unit by lists, sums and products.
Its mangled name writes that tree in prefix order with underscores between the parts, such as
`Sum_unit_int` or `Prod_List_int_List_int`, and its heap tail says whether any list occurs in it.
`DataType` are the shapes whose primitives are known, and so have values and a size.
-/

namespace Relay

/-- How a value is built. Primitives are known by name alone. -/
inductive Shape where
  | prim (name : String)
  | unit
  | list (item : Shape)
  | sum (left right : Shape)
  | prod (fst snd : Shape)
  deriving DecidableEq, Repr, Inhabited

/-- The primitive types. -/
inductive Prim where
  | bool
  | integer (kind : IntKind)
  | float
  | double
  deriving DecidableEq, Repr

/-- The types that a value can have. -/
inductive DataType where
  | unit
  | prim (p : Prim)
  | list (item : DataType)
  | sum (left right : DataType)
  | prod (fst snd : DataType)
  deriving DecidableEq, Repr

namespace Shape

/-- The mangled name of a shape. -/
def typeName : Shape → String
  | .prim name => name
  | .unit => "unit"
  | .list item => "List_" ++ item.typeName
  | .sum left right => "Sum_" ++ left.typeName ++ "_" ++ right.typeName
  | .prod fst snd => "Prod_" ++ fst.typeName ++ "_" ++ snd.typeName

/-- Whether a part of the value lives outside its inline block, as every list does. -/
def heapTail : Shape → Bool
  | .prim _ | .unit => false
  | .list _ => true
  | .sum left right => left.heapTail || right.heapTail
  | .prod fst snd => fst.heapTail || snd.heapTail

end Shape

namespace Prim

/-- The name of a primitive type. -/
def name : Prim → String
  | .bool => "bool"
  | .integer .char => "char"
  | .integer .uchar => "uchar"
  | .integer .short => "short"
  | .integer .ushort => "ushort"
  | .integer .int => "int"
  | .integer .uint => "uint"
  | .integer .long => "long"
  | .integer .ulong => "ulong"
  | .integer .size => "size"
  | .float => "float"
  | .double => "double"

/-- All primitive types. -/
def all : List Prim :=
  [.bool, .integer .char, .integer .uchar, .integer .short, .integer .ushort, .integer .int,
    .integer .uint, .integer .long, .integer .ulong, .integer .size, .float, .double]

/-- The primitive type of a name. -/
def ofName? (name : String) : Option Prim :=
  all.find? fun p => p.name = name

end Prim

namespace DataType

/-- The shape of a type. -/
def shape : DataType → Shape
  | .unit => .unit
  | .prim p => .prim p.name
  | .list item => .list item.shape
  | .sum left right => .sum left.shape right.shape
  | .prod fst snd => .prod fst.shape snd.shape

/-- The type of a shape, if all its primitives are known. -/
def ofShape? : Shape → Option DataType
  | .unit => some .unit
  | .prim name => (Prim.ofName? name).map .prim
  | .list item => (ofShape? item).map .list
  | .sum left right => do return .sum (← ofShape? left) (← ofShape? right)
  | .prod fst snd => do return .prod (← ofShape? fst) (← ofShape? snd)

/-- The mangled name of a type. -/
def typeName (t : DataType) : String := t.shape.typeName

/-- Whether a value of the type has parts outside its inline block. -/
def heapTail (t : DataType) : Bool := t.shape.heapTail

theorem ofShape?_shape (t : DataType) : ofShape? t.shape = some t := by
  induction t with
  | unit => rfl
  | prim p =>
    have : Prim.ofName? p.name = some p := by
      cases p with
      | integer kind => cases kind <;> decide
      | bool | float | double => decide
    simp [shape, ofShape?, this]
  | list item ih => simp [shape, ofShape?, ih]
  | sum left right ihl ihr => simp [shape, ofShape?, ihl, ihr]
  | prod fst snd ihf ihs => simp [shape, ofShape?, ihf, ihs]

end DataType

end Relay
