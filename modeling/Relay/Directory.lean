/-!
# Directories

A directory holds objects by name, in the order of their names.
-/

namespace Relay

/-- Objects by name, the names ascending. -/
abbrev Directory (α : Type) : Type := List (String × α)

namespace Directory

variable {α : Type}

/-- The object of a name. -/
def find? : Directory α → String → Option α
  | [], _ => none
  | (name, a) :: rest, key => if name = key then some a else find? rest key

/-- The directory with the object of a name put in, in place of the one it had. -/
def put : Directory α → String → α → Directory α
  | [], key, a => [(key, a)]
  | (name, b) :: rest, key, a =>
    if name = key then (key, a) :: rest
    else if key < name then (key, a) :: (name, b) :: rest
    else (name, b) :: put rest key a

/-- The directory without the object of a name. -/
def erase (d : Directory α) (key : String) : Directory α :=
  d.filter fun entry => entry.1 ≠ key

/-- The objects, in the order of their names. -/
def objects (d : Directory α) : List α :=
  d.map Prod.snd

end Directory

end Relay
