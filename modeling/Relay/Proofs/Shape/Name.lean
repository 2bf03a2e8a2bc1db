import Mathlib.Data.List.Basic
import Relay.Shape.Basic

/-!
# Names tell shapes

A mangled name is the parts of a shape in prefix order, with underscores between them and nothing
that says how they belong together. `Shape.read` puts a shape together from its parts, going from
left to right: it keeps what stands open (`Shape.Open`), and stops as soon as nothing does.

* `Shape.read_spelling`: the parts of a shape are read back, whatever comes behind them;
* `Shape.nameParts_typeName`: a name falls into the parts that its shape is spelled with;
* `Shape.heapTail_iff`: a shape has a heap tail if there is a list among its parts;
* `DataType.names_tell_shapes`: all of this about the names of types.

It holds of shapes whose primitives have names that can be told from the other parts
(`Shape.Plain`), as those of all types have.
-/

namespace Relay

/-- The parts of a name, which underscores divide. -/
def nameParts (name : String) : List String :=
  (name.toList.splitOn '_').map String.ofList

namespace Shape

/-- The parts of a shape in prefix order. -/
def spelling : Shape → List String
  | .prim name => [name]
  | .unit => ["unit"]
  | .list item => "List" :: item.spelling
  | .sum left right => "Sum" :: (left.spelling ++ right.spelling)
  | .prod fst snd => "Prod" :: (fst.spelling ++ snd.spelling)

/-- A name that is a single part, and none of those that stand for anything but a primitive. -/
def PlainName (name : String) : Prop :=
  '_' ∉ name.toList ∧ name ∉ ["unit", "List", "Sum", "Prod"]

instance (name : String) : Decidable (PlainName name) :=
  inferInstanceAs (Decidable (_ ∧ _))

/-- All primitives have plain names. -/
def Plain : Shape → Prop
  | .prim name => PlainName name
  | .unit => True
  | .list item => item.Plain
  | .sum left right => left.Plain ∧ right.Plain
  | .prod fst snd => fst.Plain ∧ snd.Plain

/-! ## Reading from left to right -/

/-- A shape that was begun, and waits for the next one to be complete. -/
inductive Open where
  | list
  /-- Waits for its left arm, and then for the right one. -/
  | sum
  | sumRight (left : Shape)
  /-- Waits for its first component, and then for the second one. -/
  | prod
  | prodSnd (fst : Shape)

/-- Puts a shape in where it was waited for, the innermost place first. Either nothing stands open
any more, and the outermost shape is complete, or something waits for the next shape. -/
def settle : List Open → Shape → Shape ⊕ List Open
  | [], s => .inl s
  | .list :: pending, s => settle pending (.list s)
  | .sum :: pending, s => .inr (.sumRight s :: pending)
  | .sumRight left :: pending, s => settle pending (.sum left s)
  | .prod :: pending, s => .inr (.prodSnd s :: pending)
  | .prodSnd fst :: pending, s => settle pending (.prod fst s)

/-- Takes in the next part. -/
def take (pending : List Open) (part : String) : Shape ⊕ List Open :=
  if part = "List" then .inr (.list :: pending)
  else if part = "Sum" then .inr (.sum :: pending)
  else if part = "Prod" then .inr (.prod :: pending)
  else if part = "unit" then settle pending .unit
  else settle pending (.prim part)

/-- Reads on until nothing stands open: the shape that was read, and the parts behind it. -/
def read : Shape ⊕ List Open → List String → Option (Shape × List String)
  | .inl s, rest => some (s, rest)
  | .inr _, [] => none
  | .inr pending, part :: rest => read (take pending part) rest

theorem take_plainName {name : String} (hplain : PlainName name) (pending : List Open) :
    take pending name = settle pending (.prim name) := by
  obtain ⟨-, hother⟩ := hplain
  simp only [List.mem_cons, List.not_mem_nil, or_false, not_or] at hother
  obtain ⟨hunit, hlist, hsum, hprod⟩ := hother
  rw [take, if_neg hlist, if_neg hsum, if_neg hprod, if_neg hunit]

/-- The parts of a shape are read as that shape, whatever stands open and comes behind them. -/
theorem read_spelling {s : Shape} (hplain : s.Plain) (pending : List Open) (rest : List String) :
    read (.inr pending) (s.spelling ++ rest) = read (settle pending s) rest := by
  induction s generalizing pending rest with
  | prim name => rw [spelling, List.singleton_append, read, take_plainName hplain]
  | unit => rfl
  | list item ih => exact ih hplain (.list :: pending) rest
  | sum left right ihl ihr =>
    rw [spelling, List.cons_append, List.append_assoc]
    calc read (.inr pending) ("Sum" :: (left.spelling ++ (right.spelling ++ rest)))
      _ = read (.inr (.sum :: pending)) (left.spelling ++ (right.spelling ++ rest)) := rfl
      _ = read (.inr (.sumRight left :: pending)) (right.spelling ++ rest) := ihl hplain.1 _ _
      _ = read (settle pending (.sum left right)) rest := ihr hplain.2 _ _
  | prod fst snd ihf ihs =>
    rw [spelling, List.cons_append, List.append_assoc]
    calc read (.inr pending) ("Prod" :: (fst.spelling ++ (snd.spelling ++ rest)))
      _ = read (.inr (.prod :: pending)) (fst.spelling ++ (snd.spelling ++ rest)) := rfl
      _ = read (.inr (.prodSnd fst :: pending)) (snd.spelling ++ rest) := ihf hplain.1 _ _
      _ = read (settle pending (.prod fst snd)) rest := ihs hplain.2 _ _

/-- Reads a name from its beginning. -/
def readName (name : String) : Option (Shape × List String) :=
  read (.inr []) (nameParts name)

/-! ## Names and their parts -/

theorem nameParts_append (a b : String) :
    nameParts (a ++ "_" ++ b) = nameParts a ++ nameParts b := by
  have hjoined : (a ++ "_" ++ b).toList = a.toList ++ '_' :: b.toList := by simp
  have hseparates : ('_' == '_') = true := rfl
  have hsplit := List.splitOnP_append_cons (p := (· == '_')) a.toList b.toList hseparates
  rw [nameParts, hjoined, List.splitOn, hsplit, List.map_append]
  rfl

theorem nameParts_of_not_mem {name : String} (hsingle : '_' ∉ name.toList) :
    nameParts name = [name] := by
  have hnone : ∀ c ∈ name.toList, (c == '_') = false := by
    intro c hc
    exact beq_eq_false_iff_ne.mpr fun hsame => hsingle (hsame ▸ hc)
  rw [nameParts, List.splitOn, List.splitOnP_eq_singleton hnone, List.map_singleton,
    String.ofList_toList]

/-- The name of a shape falls into its parts. -/
theorem nameParts_typeName {s : Shape} (hplain : s.Plain) : nameParts s.typeName = s.spelling := by
  induction s with
  | prim name => exact nameParts_of_not_mem hplain.1
  | unit => exact nameParts_of_not_mem (by decide)
  | list item ih =>
    have hname : (list item).typeName = "List" ++ "_" ++ item.typeName := rfl
    rw [hname, nameParts_append, nameParts_of_not_mem (by decide), ih hplain]
    rfl
  | sum left right ihl ihr =>
    have hname : (sum left right).typeName =
      "Sum" ++ "_" ++ left.typeName ++ "_" ++ right.typeName := rfl
    rw [hname, nameParts_append, nameParts_append, nameParts_of_not_mem (by decide), ihl hplain.1,
      ihr hplain.2]
    rfl
  | prod fst snd ihf ihs =>
    have hname : (prod fst snd).typeName =
      "Prod" ++ "_" ++ fst.typeName ++ "_" ++ snd.typeName := rfl
    rw [hname, nameParts_append, nameParts_append, nameParts_of_not_mem (by decide), ihf hplain.1,
      ihs hplain.2]
    rfl

variable {s t : Shape}

/-- A name is read back. -/
theorem readName_typeName (hplain : s.Plain) : readName s.typeName = some (s, []) := by
  have hback := read_spelling hplain [] []
  rw [List.append_nil] at hback
  rw [readName, nameParts_typeName hplain, hback]
  rfl

/-- A name is read back, and no further, if more text follows it behind an underscore. -/
theorem readName_typeName_append (hplain : s.Plain) (more : String) :
    readName (s.typeName ++ "_" ++ more) = some (s, nameParts more) := by
  rw [readName, nameParts_append, nameParts_typeName hplain, read_spelling hplain]
  cases nameParts more <;> rfl

/-- Names tell shapes apart. -/
theorem typeName_inj (hs : s.Plain) (ht : t.Plain) : s.typeName = t.typeName ↔ s = t := by
  refine ⟨fun hsame => ?_, fun hsame => hsame ▸ rfl⟩
  have hread := readName_typeName hs
  rw [hsame, readName_typeName ht] at hread
  exact (Prod.mk.inj (Option.some.inj hread)).1.symm

theorem nameParts_ne_nil (name : String) : nameParts name ≠ [] := by
  rw [nameParts, Ne, List.map_eq_nil_iff]
  exact List.splitOnP_ne_nil _ _

/-- No name goes on where another one ends. -/
theorem typeName_ne_append (hs : s.Plain) (ht : t.Plain) (more : String) :
    s.typeName ≠ t.typeName ++ "_" ++ more := by
  intro hsame
  have hread := readName_typeName hs
  rw [hsame, readName_typeName_append ht] at hread
  exact nameParts_ne_nil more (Prod.mk.inj (Option.some.inj hread)).2

/-- A shape has a heap tail if there is a list among its parts. -/
theorem heapTail_iff (hplain : s.Plain) : s.heapTail = true ↔ "List" ∈ s.spelling := by
  induction s with
  | prim name =>
    have hother : "List" ≠ name := by
      rintro rfl
      exact hplain.2 (by decide)
    simp [heapTail, spelling, hother]
  | unit => decide
  | list item => simp [heapTail, spelling]
  | sum left right ihl ihr => simp [heapTail, spelling, ihl hplain.1, ihr hplain.2]
  | prod fst snd ihf ihs => simp [heapTail, spelling, ihf hplain.1, ihs hplain.2]

end Shape

/-! ## The names of types -/

theorem Prim.plainName (p : Prim) : Shape.PlainName p.name := by
  cases p with
  | integer kind => cases kind <;> decide
  | bool | float | double => decide

namespace DataType

theorem plain_shape (t : DataType) : t.shape.Plain := by
  induction t with
  | unit => trivial
  | prim p => exact p.plainName
  | list item ih => exact ih
  | sum left right ihl ihr => exact ⟨ihl, ihr⟩
  | prod fst snd ihf ihs => exact ⟨ihf, ihs⟩

/-- **Names tell shapes.** Two types have the same name just if they have the same shape, no name
is another one with an underscore and more behind it, and reading a name from left to right gives
back the shape and stops where the name ends. A type has a heap tail if and only if one of the parts
of its name is `List`. -/
theorem names_tell_shapes :
    (∀ s t : DataType, s.typeName = t.typeName ↔ s.shape = t.shape) ∧
    (∀ (s t : DataType) (more : String), s.typeName ≠ t.typeName ++ "_" ++ more) ∧
    (∀ t : DataType, Shape.readName t.typeName = some (t.shape, []) ∧
      ∀ more : String,
        Shape.readName (t.typeName ++ "_" ++ more) = some (t.shape, nameParts more)) ∧
    ∀ t : DataType, t.heapTail = true ↔ "List" ∈ nameParts t.typeName := by
  refine ⟨fun s t => ?_, fun s t more => ?_, fun t => ⟨?_, fun more => ?_⟩, fun t => ?_⟩
  · exact Shape.typeName_inj s.plain_shape t.plain_shape
  · exact Shape.typeName_ne_append s.plain_shape t.plain_shape more
  · exact Shape.readName_typeName t.plain_shape
  · exact Shape.readName_typeName_append t.plain_shape more
  · rw [typeName, Shape.nameParts_typeName t.plain_shape]
    exact Shape.heapTail_iff t.plain_shape

example : Shape.readName "Prod_List_int_Sum_unit_bool_List" =
    some (.prod (.list (.prim "int")) (.sum .unit (.prim "bool")), ["List"]) := by
  decide +kernel

end DataType

end Relay
