import Relay.Payload.Basic

/-!
# Functions on payloads

A small language of functions on payloads: constants, arithmetic, access to sums, products and
lists, and the sorting operations. A function fails when the payload has not the form it asks
for. `Function.apply` takes the name of the thread that it runs on, which `threadName` gives back.
-/

namespace Relay

/-- Why a function gives no payload. -/
inductive Failure where
  /-- The payload has not the form that the function asks for. -/
  | mismatch
  /-- The result of an integer operation is out of range. -/
  | overflow
  /-- The wrong arm of a sum was read. -/
  | value (fault : ValueFault)
  /-- The function gave up without a result. -/
  | panic
  deriving DecidableEq, Repr

/-- A function on payloads. -/
inductive Function where
  | identity
  | const (p : Payload)
  | left
  | right
  | pair (p : Payload)
  | singleton
  | add (n : Int)
  | mul (n : Int)
  | toText
  | swap
  | fst
  | snd
  | mapFst (f : Function)
  | mapSnd (f : Function)
  | intoLeft
  | intoRight
  | asLeft
  | asRight
  | label
  | mapLeft (f : Function)
  | mapRight (f : Function)
  | fold (onLeft onRight : Function)
  | push (p : Payload)
  | size
  | first
  | splitAt (n : Int)
  | each (f : Function)
  | sort
  | halve
  | sortHalves
  | merge
  | checkedSort (limit : Int)
  | threadName
  | panic
  | panicIf (p : Payload)
  | andThen (f g : Function)
  deriving Inhabited

namespace Function

/-- A count given as a signed word: a negative one stands for that far below two to the 64th. -/
def count (n : Int) : Nat :=
  (n % 0x10000000000000000).toNat

/-- The payload of an integer result. -/
def checkedInt (i : Int) : Except Failure Payload :=
  match Payload.ofInt? i with
  | some p => .ok p
  | none => .error .overflow

/-- Runs an operation on the value of a form. -/
def onForm (f : Form) (p : Payload) (op : f.Value → Payload) : Except Failure Payload :=
  match p.as? f with
  | some v => .ok (op v)
  | none => .error .mismatch

/-- The arms of a payload that is a sum. -/
def asSum : Payload → Except Failure (Payload ⊕ Payload)
  | .left p => .ok (.inl p)
  | .right p => .ok (.inr p)
  | _ => .error .mismatch

/-- The optional payload as a sum: the right arm if there is one, else the left. -/
def ofOption : Option Payload → Payload
  | some p => .right p
  | none => .left .unit

/-- The results of all items, in order. Every item is visited, unless one of them panics, which
ends the visit; otherwise the first failure counts. -/
def collect : List (Except Failure Payload) → Except Failure (List Payload)
  | [] => .ok []
  | .ok p :: rest => (collect rest).map (p :: ·)
  | .error .panic :: _ => .error .panic
  | .error e :: rest =>
    match collect rest with
    | .error .panic => .error .panic
    | _ => .error e

/-- Applies a function to a payload on the thread named `thread`. -/
def apply (thread : String) : Function → Payload → Except Failure Payload
  | .identity, x => .ok x
  | .const p, _ => .ok p
  | .left, x => .ok (.left x)
  | .right, x => .ok (.right x)
  | .pair p, x => .ok (.prod x p)
  | .singleton, x => .ok (.list [x])
  | .add n, .integer i => checkedInt (i.val + n)
  | .mul n, .integer i => checkedInt (i.val * n)
  | .toText, .integer i => .ok (.text (String.ofList (Decimal.ofInt i.val)))
  | .swap, .prod a b => .ok (.prod b a)
  | .fst, .prod a _ => .ok a
  | .snd, .prod _ b => .ok b
  | .mapFst f, .prod a b => do return .prod (← f.apply thread a) b
  | .mapSnd f, .prod a b => do return .prod a (← f.apply thread b)
  | .intoLeft, x => do (takeLeft (← asSum x)).mapError .value
  | .intoRight, x => do (takeRight (← asSum x)).mapError .value
  | .asLeft, x => do return ofOption (← asSum x).getLeft?
  | .asRight, x => do return ofOption (← asSum x).getRight?
  | .label, x => do return .text (Arm.of (← asSum x)).label
  | .mapLeft f, .left p => do return .left (← f.apply thread p)
  | .mapLeft _, .right p => .ok (.right p)
  | .mapRight _, .left p => .ok (.left p)
  | .mapRight f, .right p => do return .right (← f.apply thread p)
  | .fold f _, .left p => f.apply thread p
  | .fold _ g, .right p => g.apply thread p
  | .push p, .list items => .ok (.list (items ++ [p]))
  | .size, .list items => checkedInt items.length
  | .first, .list items => .ok (ofOption items.head?)
  | .splitAt n, .list items =>
    if count n ≤ items.length then
      .ok (.prod (.list (items.take (count n))) (.list (items.drop (count n))))
    else .error .panic
  | .each f, .list items => (collect (items.map (f.apply thread))).map .list
  | .sort, x => onForm .ints x fun l => .ofInts (Relay.sort IntKind.Value.le l)
  | .halve, x => onForm .ints x fun l => .ofHalves (Relay.halve l)
  | .sortHalves, x =>
    onForm (.halves (.integer .int)) x fun h => .ofHalves (Relay.sortHalves IntKind.Value.le h)
  | .merge, x =>
    onForm (.halves (.integer .int)) x fun h => .ofInts (Relay.merge IntKind.Value.le h)
  | .checkedSort limit, x =>
    onForm .ints x fun l => .ofChecked (Relay.checkedSort IntKind.Value.le (count limit) l)
  | .threadName, _ => .ok (.text thread)
  | .panic, _ => .error .panic
  | .panicIf p, x => if x == p then .error .panic else .ok x
  | .andThen f g, x => do g.apply thread (← f.apply thread x)
  | _, _ => .error .mismatch

/-- Functions applied one after the other, none of them leaving the payload as it is. -/
def sequence (fs : List Function) : Function :=
  fs.foldr .andThen .identity

end Function

end Relay
