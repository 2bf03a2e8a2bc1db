import Relay.Arm
import Relay.Integer
import Relay.Json.Parser
import Relay.Json.Printer

/-!
# Values and their JSON form

A `Form` is a type whose values can be written as JSON and read back: the unit, truth values,
integers and texts, and the lists, sums and products of those. `Form.encode` writes a sum as an
object with the key of its live arm, and a product as an object with `fst` before `snd`.
`Form.decode?` reads back what `Form.encode` writes. Of a product it also accepts the members in
either order among others, which it ignores, and an array of exactly two items. Arrays and objects
that it reads at a list, a sum or a product nest at most `Form.maxDepth` deep; what it ignores may
nest deeper.
-/

namespace Relay

/-- The types whose values have a JSON form. -/
inductive Form where
  | unit
  | bool
  | integer (kind : IntKind)
  | text
  | list (item : Form)
  | sum (left right : Form)
  | prod (fst snd : Form)
  deriving DecidableEq, Repr

namespace Form

/-- The values of a form. -/
def Value : Form → Type
  | .unit => Unit
  | .bool => Bool
  | .integer kind => kind.Value
  | .text => String
  | .list item => List item.Value
  | .sum left right => left.Value ⊕ right.Value
  | .prod fst snd => fst.Value × snd.Value

/-- Whether two values of a form are the same. -/
def decEqValue : (f : Form) → DecidableEq f.Value
  | .unit => inferInstanceAs (DecidableEq Unit)
  | .bool => inferInstanceAs (DecidableEq Bool)
  | .integer kind => inferInstanceAs (DecidableEq kind.Value)
  | .text => inferInstanceAs (DecidableEq String)
  | .list item =>
    have := item.decEqValue
    inferInstanceAs (DecidableEq (List item.Value))
  | .sum left right =>
    have := left.decEqValue
    have := right.decEqValue
    inferInstanceAs (DecidableEq (left.Value ⊕ right.Value))
  | .prod fst snd =>
    have := fst.decEqValue
    have := snd.decEqValue
    inferInstanceAs (DecidableEq (fst.Value × snd.Value))

instance (f : Form) : DecidableEq f.Value := f.decEqValue

/-- The value that a form has before anything is known of it. -/
def initial : (f : Form) → f.Value
  | .unit => ()
  | .bool => false
  | .integer kind => (default : kind.Value)
  | .text => ""
  | .list _ => []
  | .sum left _ => .inl left.initial
  | .prod fst snd => (fst.initial, snd.initial)

/-- The document of a value. -/
def encode : (f : Form) → f.Value → Json
  | .unit, _ => .null
  | .bool, b => .bool b
  | .integer _, i => .ofInt i.val
  | .text, s => .ofString s
  | .list item, xs => .array (xs.map item.encode)
  | .sum left _, .inl a => .ofMembers [(Arm.left.key, left.encode a)]
  | .sum _ right, .inr b => .ofMembers [(Arm.right.key, right.encode b)]
  | .prod fst snd, (a, b) => .ofMembers [("fst", fst.encode a), ("snd", snd.encode b)]

/-- The member with the key `key`, if there is exactly one. -/
def member? (key : List Char) (members : List (Json.Text × Json)) : Option Json :=
  match members.filter fun m => m.1.resolve? = some key with
  | [(_, j)] => some j
  | _ => none

/-- The items of a list. -/
def items? : Json → Option (List Json)
  | .array js => some js
  | _ => none

/-- The two parts of a product: the items of a pair, or the members `fst` and `snd` of an object
whose keys all are text. -/
def parts? : Json → Option (Json × Json)
  | .array [a, b] => some (a, b)
  | .object members =>
    if members.all fun m => m.1.resolve?.isSome then do
      return (← member? ['f', 's', 't'] members, ← member? ['s', 'n', 'd'] members)
    else none
  | _ => none

/-- The arm of a sum and what it holds: the only member of an object. -/
def arm? : Json → Option (Arm × Json)
  | .object [(key, j)] => (key.resolve?.bind Arm.ofKey?).map (·, j)
  | _ => none

/-- How deep the arrays and objects of a value may nest when it is read. -/
def maxDepth : Nat := 127

/-- What `read` makes of the next layer, given how many more there may be, if there may be one. -/
def inLayer? {α : Type} (read : Nat → Option α) : Nat → Option α
  | 0 => none
  | depth + 1 => read depth

/-- The value of a form that a document denotes, if the arrays and objects that hold it nest at
most `depth` deep. -/
def decodeWithin? : (f : Form) → (depth : Nat) → Json → Option f.Value
  | .unit, _, j => j.null?
  | .bool, _, j => j.bool?
  | .integer kind, _, j => j.int?.bind kind.ofInt?
  | .text, _, j => j.text?
  | .list item, depth, j =>
    depth |> inLayer? fun depth => (items? j).bind fun js => js.mapM (item.decodeWithin? depth)
  | .sum left right, depth, j =>
    depth |> inLayer? fun depth =>
      match arm? j with
      | some (.left, j) => (left.decodeWithin? depth j).map .inl
      | some (.right, j) => (right.decodeWithin? depth j).map .inr
      | none => none
  | .prod fst snd, depth, j =>
    depth |> inLayer? fun depth => do
      let (a, b) ← parts? j
      return (← fst.decodeWithin? depth a, ← snd.decodeWithin? depth b)

/-- The value of a form that a document denotes. -/
def decode? (f : Form) (j : Json) : Option f.Value :=
  f.decodeWithin? maxDepth j

/-- The compact text of a value. -/
def write (f : Form) (v : f.Value) : String :=
  (f.encode v).compact

/-- The value of a form that a text denotes. -/
def read? (f : Form) (text : String) : Option f.Value :=
  (Json.ofText? text).bind f.decode?

end Form

end Relay
