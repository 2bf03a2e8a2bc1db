import Relay.Json.Basic

/-!
# The arms of a sum

A sum holds exactly one of two arms. `Arm.of` names the live one, and `takeLeft`, `takeRight` read
an arm that the caller expects to be live and say which one was live instead.
-/

namespace Relay

/-- One of the two arms of a sum. -/
inductive Arm where
  | left
  | right
  deriving DecidableEq, Repr

namespace Arm

/-- The arm in capitals, as error messages name it. -/
def label : Arm → String
  | .left => "LEFT"
  | .right => "RIGHT"

/-- The key under which a sum writes the arm. -/
def key : Arm → String
  | .left => "Left"
  | .right => "Right"

/-- The arm with a key. -/
def ofKey? (key : List Char) : Option Arm :=
  if key = ['L', 'e', 'f', 't'] then some .left
  else if key = ['R', 'i', 'g', 'h', 't'] then some .right
  else none

/-- The live arm of a sum. -/
def of {α β : Type} : α ⊕ β → Arm
  | .inl _ => .left
  | .inr _ => .right

/-- The JSON form of an arm: its key as a string. -/
def toJson (a : Arm) : Json :=
  Json.ofString a.key

/-- Reads an arm: its key as a string, or an object with that key alone over `null`. -/
def ofJson? : Json → Option Arm
  | .string t => t.resolve?.bind ofKey?
  | .object [(t, .null)] => t.resolve?.bind ofKey?
  | _ => none

theorem ofKey?_key (a : Arm) : ofKey? a.key.toList = some a := by
  cases a <;> rfl

end Arm

/-- Why a value could not be had. -/
inductive ValueFault where
  /-- The arm that was read is not the live one. -/
  | wrongArm (expected actual : Arm)
  /-- Storage for that many elements cannot be reserved. -/
  | allocation (requested : Nat)
  deriving DecidableEq, Repr

/-- The text of a value fault. -/
def ValueFault.message : ValueFault → String
  | .wrongArm expected actual =>
    "read the " ++ expected.label ++ " arm of a sum whose active arm is " ++ actual.label
  | .allocation requested =>
    "cannot allocate sequence storage for " ++ Decimal.text requested ++ " elements"

variable {α β : Type}

/-- The left arm of a sum, or the fault that the right one is live. -/
def takeLeft : α ⊕ β → Except ValueFault α
  | .inl a => .ok a
  | .inr _ => .error (.wrongArm .left .right)

/-- The right arm of a sum, or the fault that the left one is live. -/
def takeRight : α ⊕ β → Except ValueFault β
  | .inl _ => .error (.wrongArm .right .left)
  | .inr b => .ok b

end Relay
