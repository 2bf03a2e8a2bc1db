import Mathlib
import Relay.Form
import Relay.Proofs.Json.Grammar

/-!
# The texts that denote a value

What a document denotes at a form is given by rules (`Form.Denotes`), and so is which documents
denote the same (`Form.Alike`). The decoder follows both.

* `Form.decodeWithin?_eq_some_iff`: a document is decoded to the values that it denotes, if these do
  not nest too deep;
* `Form.Alike.denotes`: documents that differ in what a form does not ask for denote the same;
* `Form.reads_denoted`: what a text is read to is what the document in it denotes, however it is
  spaced, spelled and arranged.
-/

namespace Relay

namespace Json.Text

/-- The characters that the contents of a string denote: a surrogate denotes one only together with
its partner. -/
inductive Resolves : Text → List Char → Prop where
  | nil : Resolves [] []
  | char {c : Char} {t : Text} {cs : List Char} : Resolves t cs → Resolves (.char c :: t) (c :: cs)
  | pair {hi lo : Nat} {t : Text} {cs : List Char} : 0xD800 ≤ hi → hi < 0xDC00 → 0xDC00 ≤ lo →
    lo < 0xE000 → Resolves t cs → Resolves (.surrogate hi :: .surrogate lo :: t)
      (Char.ofNat (0x10000 + (hi - 0xD800) * 0x400 + (lo - 0xDC00)) :: cs)

theorem resolve?_eq_some_iff {t : Text} {cs : List Char} :
    t.resolve? = some cs ↔ t.Resolves cs := by
  constructor
  · intro h
    fun_induction resolve? t generalizing cs with
    | case1 =>
      cases h
      exact .nil
    | case2 c t ih =>
      obtain ⟨cs, hresolved, rfl⟩ := Option.map_eq_some_iff.mp h
      exact .char (ih hresolved)
    | case3 hi lo t hpartners ih =>
      obtain ⟨cs, hresolved, rfl⟩ := Option.map_eq_some_iff.mp h
      simp only [isHigh, isLow, Bool.and_eq_true, decide_eq_true_eq] at hpartners
      exact .pair hpartners.1.1 hpartners.1.2 hpartners.2.1 hpartners.2.2 (ih hresolved)
    | case4 | case5 => cases h
  · intro h
    induction h with
    | nil => rfl
    | char _ ih => rw [resolve?, ih, Option.map_some]
    | pair hhigh hhigh' hlow hlow' _ ih =>
      simp [resolve?, isHigh, isLow, hhigh, hhigh', hlow, hlow', ih]

theorem Resolves.unique {t : Text} {cs cs' : List Char} (h : t.Resolves cs) (h' : t.Resolves cs') :
    cs = cs' := by
  rw [← resolve?_eq_some_iff] at h h'
  exact Option.some.inj (h.symm.trans h')

theorem Resolves.ofString (s : String) : (ofString s).Resolves s.toList :=
  resolve?_eq_some_iff.mp (resolve?_map_char s.toList)

end Json.Text

namespace Form

/-! ## Nesting -/

/-- How many lists, sums and products lie within each other in a form. -/
def depth : Form → Nat
  | .unit | .bool | .integer _ | .text => 0
  | .list item => item.depth + 1
  | .sum left right => max left.depth right.depth + 1
  | .prod fst snd => max fst.depth snd.depth + 1

/-- How many arrays and objects lie within each other in the document of a value. -/
def nesting : (f : Form) → f.Value → Nat
  | .unit, _ | .bool, _ | .integer _, _ | .text, _ => 0
  | .list item, xs => (xs.map item.nesting).foldr max 0 + 1
  | .sum left _, .inl a => left.nesting a + 1
  | .sum _ right, .inr b => right.nesting b + 1
  | .prod fst snd, (a, b) => max (fst.nesting a) (snd.nesting b) + 1

theorem foldr_max_le {ns : List Nat} {bound : Nat} :
    ns.foldr max 0 ≤ bound ↔ ∀ n ∈ ns, n ≤ bound := by
  induction ns with
  | nil => simp
  | cons n ns ih => rw [List.foldr_cons, Nat.max_le, ih, List.forall_mem_cons]

/-- A value nests no deeper than its form. -/
theorem nesting_le_depth (f : Form) (v : f.Value) : f.nesting v ≤ f.depth := by
  induction f with
  | unit | bool | integer | text => exact Nat.le_refl 0
  | list item ih =>
    refine Nat.succ_le_succ (foldr_max_le.mpr ?_)
    intro n hn
    obtain ⟨x, -, rfl⟩ := List.mem_map.mp hn
    exact ih x
  | sum left right ihl ihr =>
    rcases v with a | b
    · exact Nat.succ_le_succ (Nat.le_trans (ihl a) (Nat.le_max_left ..))
    · exact Nat.succ_le_succ (Nat.le_trans (ihr b) (Nat.le_max_right ..))
  | prod fst snd iha ihb =>
    obtain ⟨a, b⟩ := v
    have ha : fst.nesting a ≤ fst.depth := iha a
    have hb : snd.nesting b ≤ snd.depth := ihb b
    simp only [nesting, depth]
    omega

/-! ## What a document denotes -/

/-- The key of the first part of a product. -/
def fstKey : List Char := ['f', 's', 't']

/-- The key of the second part of a product. -/
def sndKey : List Char := ['s', 'n', 'd']

/-- The parts `p` and `q` of a product: the items of a pair, or the members of an object under the
two keys, which no other member has, every other key being a text. -/
inductive Parts (p q : Json) : Json → Prop where
  | pair : Parts p q (.array [p, q])
  | members {fst snd : Json.Text} {ms others : List (Json.Text × Json)} : fst.Resolves fstKey →
    snd.Resolves sndKey →
    (∀ m ∈ others, ∃ name, m.1.Resolves name ∧ name ≠ fstKey ∧ name ≠ sndKey) →
    ms.Perm ((fst, p) :: (snd, q) :: others) → Parts p q (.object ms)

/-- What a document denotes at a form. -/
def Denotes : (f : Form) → Json → f.Value → Prop
  | .unit, j, _ => j = .null
  | .bool, j, b => j = .bool b
  | .integer _, j, i => ∃ negative n, j = .integer negative n ∧ ¬ (negative = true ∧ n = 0) ∧
      i.val = if negative then -(n : Int) else n
  | .text, j, s => ∃ t, j = .string t ∧ t.Resolves s.toList
  | .list item, j, xs => ∃ js, j = .array js ∧ List.Forall₂ item.Denotes js xs
  | .sum left _, j, .inl a => ∃ key i, j = .object [(key, i)] ∧ key.Resolves Arm.left.key.toList ∧
      left.Denotes i a
  | .sum _ right, j, .inr b => ∃ key i, j = .object [(key, i)] ∧
      key.Resolves Arm.right.key.toList ∧ right.Denotes i b
  | .prod fst snd, j, (a, b) => ∃ p q, Parts p q j ∧ fst.Denotes p a ∧ snd.Denotes q b

theorem int?_eq_some_iff {j : Json} {i : Int} : j.int? = some i ↔
    ∃ negative n, j = .integer negative n ∧ ¬ (negative = true ∧ n = 0) ∧
      i = if negative then -(n : Int) else n := by
  constructor
  · intro h
    unfold Json.int? at h
    split at h
    next n =>
      cases h
      exact ⟨false, n, rfl, by simp, rfl⟩
    next => cases h
    next n =>
      cases h
      exact ⟨true, n + 1, rfl, by simp, rfl⟩
    next => cases h
  · rintro ⟨negative, n, rfl, hzero, rfl⟩
    cases negative with
    | false => rfl
    | true =>
      cases n with
      | zero => exact absurd ⟨rfl, rfl⟩ hzero
      | succ n => rfl

theorem ofInt?_eq_some_iff {kind : IntKind} {i : Int} {v : kind.Value} :
    kind.ofInt? i = some v ↔ v.val = i := by
  constructor
  · intro h
    unfold IntKind.ofInt? at h
    split at h
    · cases h
      rfl
    · cases h
  · rintro rfl
    exact IntKind.ofInt?_val v

theorem arm?_eq_some_iff {j i : Json} {a : Arm} :
    arm? j = some (a, i) ↔ ∃ key, j = .object [(key, i)] ∧ key.Resolves a.key.toList := by
  have hknown : ∀ name, Arm.ofKey? name = some a ↔ name = a.key.toList := by
    intro name
    constructor
    · intro h
      unfold Arm.ofKey? at h
      split at h
      next hsame =>
        cases h
        exact hsame
      next =>
        split at h
        next hsame =>
          cases h
          exact hsame
        next => cases h
    · rintro rfl
      exact a.ofKey?_key
  constructor
  · intro h
    unfold arm? at h
    split at h
    next key i =>
      simp only [Option.map_eq_some_iff, Option.bind_eq_some_iff, Prod.mk.injEq] at h
      obtain ⟨a, ⟨name, hresolved, harm⟩, rfl, rfl⟩ := h
      rw [hknown] at harm
      exact ⟨key, rfl, Json.Text.resolve?_eq_some_iff.mp (harm ▸ hresolved)⟩
    next => cases h
  · rintro ⟨key, rfl, hresolves⟩
    rw [arm?, Json.Text.resolve?_eq_some_iff.mpr hresolves, Option.bind_some, a.ofKey?_key,
      Option.map_some]

/-! ## Members by their keys -/

/-- Whether a member has a key. -/
def hasKey (name : List Char) (m : Json.Text × Json) : Bool :=
  m.1.resolve? = some name

theorem member?_eq_some_iff {name : List Char} {ms : List (Json.Text × Json)} {j : Json} :
    member? name ms = some j ↔ ∃ key, ms.filter (hasKey name) = [(key, j)] := by
  have hsame : (fun m : Json.Text × Json => decide (m.1.resolve? = some name)) = hasKey name := rfl
  rw [member?, hsame]
  split
  next key i hsingle =>
    rw [hsingle]
    simp
  next hother =>
    refine iff_of_false (by simp) ?_
    rintro ⟨key, hsingle⟩
    exact hother key j hsingle

theorem member?_perm {name : List Char} {ms ms' : List (Json.Text × Json)} (h : ms.Perm ms') :
    member? name ms = member? name ms' := by
  ext j
  rw [member?_eq_some_iff, member?_eq_some_iff]
  refine exists_congr fun key => ?_
  rw [← List.perm_singleton, ← List.perm_singleton]
  exact (h.filter _).congr_left _

theorem member?_cons_of_not {name : List Char} {m : Json.Text × Json}
    {ms : List (Json.Text × Json)} (h : hasKey name m = false) :
    member? name (m :: ms) = member? name ms := by
  ext j
  rw [member?_eq_some_iff, member?_eq_some_iff, List.filter_cons_of_neg (by simp [h])]

theorem hasKey_eq_true_iff {name : List Char} {m : Json.Text × Json} :
    hasKey name m = true ↔ m.1.Resolves name := by
  rw [hasKey, decide_eq_true_eq, Json.Text.resolve?_eq_some_iff]

/-! ## What the decoder accepts -/

theorem parts?_object {ms : List (Json.Text × Json)} {p q : Json} :
    parts? (.object ms) = some (p, q) ↔ (∀ m ∈ ms, m.1.resolve?.isSome = true) ∧
      member? fstKey ms = some p ∧ member? sndKey ms = some q := by
  rw [parts?, Option.ite_none_right_eq_some, List.all_eq_true]
  simp [Option.bind_eq_some_iff, fstKey, sndKey]

theorem not_hasKey_snd {m : Json.Text × Json} (h : m.1.Resolves fstKey) :
    hasKey sndKey m = false := by
  rw [hasKey, Json.Text.resolve?_eq_some_iff.mpr h]
  decide

theorem not_hasKey_fst {m : Json.Text × Json} (h : m.1.Resolves sndKey) :
    hasKey fstKey m = false := by
  rw [hasKey, Json.Text.resolve?_eq_some_iff.mpr h]
  decide

/-- Members with one first and one second part, apart from the others. -/
theorem perm_of_members {ms : List (Json.Text × Json)} {m m' : Json.Text × Json}
    (hfirst : ms.filter (hasKey fstKey) = [m]) (hsecond : ms.filter (hasKey sndKey) = [m']) :
    ms.Perm (m :: m' ::
      (ms.filter fun m => !hasKey fstKey m).filter fun m => !hasKey sndKey m) := by
  have hboth : (ms.filter fun m => !hasKey fstKey m).filter (hasKey sndKey) = [m'] := by
    rw [List.filter_filter, ← hsecond]
    refine List.filter_congr fun m _ => ?_
    cases hhas : hasKey sndKey m with
    | false => rfl
    | true => rw [not_hasKey_fst (hasKey_eq_true_iff.mp hhas)]; rfl
  have houter := List.filter_append_perm (hasKey fstKey) ms
  have hinner := List.filter_append_perm (hasKey sndKey) (ms.filter fun m => !hasKey fstKey m)
  rw [hfirst] at houter
  rw [hboth] at hinner
  exact houter.symm.trans (hinner.symm.cons m)

theorem parts_of_object {ms : List (Json.Text × Json)} {p q : Json}
    (h : parts? (.object ms) = some (p, q)) : Parts p q (.object ms) := by
  obtain ⟨htexts, hfirst, hsecond⟩ := parts?_object.mp h
  obtain ⟨key, hfirst⟩ := member?_eq_some_iff.mp hfirst
  obtain ⟨key', hsecond⟩ := member?_eq_some_iff.mp hsecond
  have hkey : (key, p) ∈ ms.filter (hasKey fstKey) := hfirst ▸ List.mem_singleton_self _
  have hkey' : (key', q) ∈ ms.filter (hasKey sndKey) := hsecond ▸ List.mem_singleton_self _
  refine .members (hasKey_eq_true_iff.mp (List.mem_filter.mp hkey).2)
    (hasKey_eq_true_iff.mp (List.mem_filter.mp hkey').2) (fun m hm => ?_)
    (perm_of_members hfirst hsecond)
  obtain ⟨hm, hother'⟩ := List.mem_filter.mp hm
  obtain ⟨hm, hother⟩ := List.mem_filter.mp hm
  obtain ⟨name, hresolved⟩ := Option.isSome_iff_exists.mp (htexts m hm)
  refine ⟨name, Json.Text.resolve?_eq_some_iff.mp hresolved, ?_, ?_⟩
  · rintro rfl
    simp [hasKey, hresolved] at hother
  · rintro rfl
    simp [hasKey, hresolved] at hother'

theorem parts?_of_members {key key' : Json.Text} {ms others : List (Json.Text × Json)} {p q : Json}
    (hfirst : key.Resolves fstKey) (hsecond : key'.Resolves sndKey)
    (hskipped : ∀ m ∈ others, ∃ name, m.1.Resolves name ∧ name ≠ fstKey ∧ name ≠ sndKey)
    (hperm : ms.Perm ((key, p) :: (key', q) :: others)) : parts? (.object ms) = some (p, q) := by
  have hresolved : ∀ {t : Json.Text} {cs}, t.Resolves cs → t.resolve? = some cs :=
    Json.Text.resolve?_eq_some_iff.mpr
  have hnone : ∀ m ∈ others, hasKey fstKey m = false ∧ hasKey sndKey m = false := by
    intro m hm
    obtain ⟨name, hnamed, hother, hother'⟩ := hskipped m hm
    simp [hasKey, hresolved hnamed, hother, hother']
  have hfilters : others.filter (hasKey fstKey) = [] ∧ others.filter (hasKey sndKey) = [] := by
    simp only [List.filter_eq_nil_iff, Bool.not_eq_true]
    exact ⟨fun m hm => (hnone m hm).1, fun m hm => (hnone m hm).2⟩
  refine parts?_object.mpr ⟨fun m hm => ?_, ?_, ?_⟩
  · rw [hperm.mem_iff, List.mem_cons, List.mem_cons] at hm
    rcases hm with rfl | rfl | hm
    · simp [hresolved hfirst]
    · simp [hresolved hsecond]
    · obtain ⟨name, hnamed, -⟩ := hskipped m hm
      simp [hresolved hnamed]
  · rw [member?_perm hperm]
    refine member?_eq_some_iff.mpr ⟨key, ?_⟩
    rw [List.filter_cons_of_pos (hasKey_eq_true_iff.mpr hfirst),
      List.filter_cons_of_neg (by simp [not_hasKey_fst (m := (key', q)) hsecond]), hfilters.1]
  · rw [member?_perm hperm, member?_cons_of_not (not_hasKey_snd (m := (key, p)) hfirst)]
    refine member?_eq_some_iff.mpr ⟨key', ?_⟩
    rw [List.filter_cons_of_pos (hasKey_eq_true_iff.mpr hsecond), hfilters.2]

/-- The parts that the decoder finds are the parts of the product. -/
theorem parts?_eq_some_iff {j p q : Json} : parts? j = some (p, q) ↔ Parts p q j := by
  constructor
  · intro h
    cases j with
    | array js =>
      rcases js with _ | ⟨a, _ | ⟨b, _ | _⟩⟩
      case cons.cons.nil =>
        cases h
        exact .pair
      all_goals cases h
    | object ms => exact parts_of_object h
    | null | bool | integer | fractional | string => cases h
  · intro h
    cases h with
    | pair => rfl
    | members hfirst hsecond hskipped hperm => exact parts?_of_members hfirst hsecond hskipped hperm

section Arms

variable {α β : Type} {arm : Option (Arm × Json)} {readLeft : Json → Option α}
  {readRight : Json → Option β}

theorem left_eq_some_iff {a : α} :
    (match arm with
      | some (.left, i) => (readLeft i).map Sum.inl
      | some (.right, i) => (readRight i).map Sum.inr
      | none => none) = some (.inl a) ↔ ∃ i, arm = some (.left, i) ∧ readLeft i = some a := by
  rcases arm with _ | ⟨_ | _, i⟩ <;> simp

theorem right_eq_some_iff {b : β} :
    (match arm with
      | some (.left, i) => (readLeft i).map Sum.inl
      | some (.right, i) => (readRight i).map Sum.inr
      | none => none) = some (.inr b) ↔ ∃ i, arm = some (.right, i) ∧ readRight i = some b := by
  rcases arm with _ | ⟨_ | _, i⟩ <;> simp

end Arms

theorem mapM_eq_some_iff {α β : Type} {f : β → Option α} {R : β → α → Prop} {P : α → Prop}
    (heach : ∀ y x, f y = some x ↔ R y x ∧ P x) {ys : List β} {xs : List α} :
    ys.mapM f = some xs ↔ List.Forall₂ R ys xs ∧ ∀ x ∈ xs, P x := by
  induction ys generalizing xs with
  | nil =>
    cases xs <;> simp
  | cons y ys ih =>
    simp only [List.mapM_cons, Option.pure_def, Option.bind_eq_bind, Option.bind_eq_some_iff,
      Option.some.injEq, heach, ih]
    constructor
    · rintro ⟨x, ⟨hx, hpx⟩, others, ⟨hothers, hpothers⟩, rfl⟩
      exact ⟨.cons hx hothers, List.forall_mem_cons.mpr ⟨hpx, hpothers⟩⟩
    · rintro ⟨hrel, hall⟩
      cases hrel with
      | cons hx hothers =>
        obtain ⟨hpx, hpothers⟩ := List.forall_mem_cons.mp hall
        exact ⟨_, ⟨hx, hpx⟩, _, ⟨hothers, hpothers⟩, rfl⟩

theorem inLayer?_eq_some_iff {α : Type} {read : Nat → Option α} {v : α} {P : Prop} {n : Nat}
    (hlayer : ∀ depth, read depth = some v ↔ P ∧ n ≤ depth) {depth : Nat} :
    inLayer? read depth = some v ↔ P ∧ n + 1 ≤ depth := by
  cases depth with
  | zero => simp [inLayer?]
  | succ depth => rw [inLayer?, hlayer, Nat.succ_le_succ_iff]

/-- Both parts of a product are decoded, or nothing is. -/
theorem both_eq_some {α β : Type} {parts : Option (Json × Json)} {left : Json → Option α}
    {right : Json → Option β} {a : α} {b : β} :
    (do let (i, j) ← parts; return (← left i, ← right j)) = some (a, b) ↔
      ∃ i j, parts = some (i, j) ∧ left i = some a ∧ right j = some b := by
  simp [Option.bind_eq_some_iff]

/-- A document is decoded to the values that it denotes, if these do not nest too deep. -/
theorem decodeWithin?_eq_some_iff (f : Form) {depth : Nat} {j : Json} {v : f.Value} :
    f.decodeWithin? depth j = some v ↔ f.Denotes j v ∧ f.nesting v ≤ depth := by
  induction f generalizing depth j with
  | unit =>
    change j.null? = some () ↔ j = .null ∧ 0 ≤ depth
    cases j <;> simp [Json.null?]
  | bool =>
    change Bool at v
    change j.bool? = some v ↔ j = .bool v ∧ 0 ≤ depth
    cases j <;> simp [Json.bool?]
  | integer kind =>
    change kind.Value at v
    change j.int?.bind kind.ofInt? = some v ↔ Denotes (.integer kind) j v ∧ 0 ≤ depth
    simp only [Option.bind_eq_some_iff, ofInt?_eq_some_iff, exists_eq_right', int?_eq_some_iff,
      Denotes, Nat.zero_le, and_true]
  | text =>
    change String at v
    change j.text? = some v ↔ (∃ t, j = .string t ∧ t.Resolves v.toList) ∧ 0 ≤ depth
    have hstring : ∀ cs : List Char, String.ofList cs = v ↔ cs = v.toList := fun cs => by
      rw [← String.toList_inj, String.toList_ofList]
    cases j with
    | string t =>
      simp [Json.text?, Json.Text.toString?, hstring, Json.Text.resolve?_eq_some_iff]
    | null | bool | integer | fractional | array | object => simp [Json.text?]
  | list item ih =>
    change List item.Value at v
    refine inLayer?_eq_some_iff fun depth => ?_
    rw [foldr_max_le, List.forall_mem_map]
    cases j with
    | array js =>
      refine (mapM_eq_some_iff fun j x => ih).trans ?_
      simp [Denotes]
    | null | bool | integer | fractional | string | object =>
      refine iff_of_false ?_ (by simp [Denotes])
      intro h
      cases h
  | sum left right ihl ihr =>
    rcases v with a | b
    · refine inLayer?_eq_some_iff fun depth => left_eq_some_iff.trans ?_
      simp only [arm?_eq_some_iff, ihl]
      constructor
      · rintro ⟨i, ⟨key, rfl, hresolves⟩, hdenotes, hshallow⟩
        exact ⟨⟨key, i, rfl, hresolves, hdenotes⟩, hshallow⟩
      · rintro ⟨⟨key, i, rfl, hresolves, hdenotes⟩, hshallow⟩
        exact ⟨i, ⟨key, rfl, hresolves⟩, hdenotes, hshallow⟩
    · refine inLayer?_eq_some_iff fun depth => right_eq_some_iff.trans ?_
      simp only [arm?_eq_some_iff, ihr]
      constructor
      · rintro ⟨i, ⟨key, rfl, hresolves⟩, hdenotes, hshallow⟩
        exact ⟨⟨key, i, rfl, hresolves, hdenotes⟩, hshallow⟩
      · rintro ⟨⟨key, i, rfl, hresolves, hdenotes⟩, hshallow⟩
        exact ⟨i, ⟨key, rfl, hresolves⟩, hdenotes, hshallow⟩
  | prod fst snd iha ihb =>
    obtain ⟨a, b⟩ := v
    refine inLayer?_eq_some_iff fun depth => both_eq_some.trans ?_
    rw [Nat.max_le]
    simp only [parts?_eq_some_iff, iha, ihb]
    constructor
    · rintro ⟨p, q, hparts, ⟨ha, hna⟩, hb, hnb⟩
      exact ⟨⟨p, q, hparts, ha, hb⟩, hna, hnb⟩
    · rintro ⟨⟨p, q, hparts, ha, hb⟩, hna, hnb⟩
      exact ⟨p, q, hparts, ⟨ha, hna⟩, hb, hnb⟩

/-! ## What a form does not ask for -/

/-- Documents that differ only in what a form does not ask for: the escapes of texts and keys, how a
product is written, the order of its members, and its members under other keys. -/
inductive Alike : Form → Json → Json → Prop where
  | refl (f : Form) (j : Json) : Alike f j j
  | symm {f : Form} {i j : Json} : Alike f i j → Alike f j i
  | trans {f : Form} {i j k : Json} : Alike f i j → Alike f j k → Alike f i k
  | text {t t' : Json.Text} {cs : List Char} : t.Resolves cs → t'.Resolves cs →
    Alike .text (.string t) (.string t')
  | item {item : Form} {i j : Json} (before after : List Json) : Alike item i j →
    Alike (.list item) (.array (before ++ i :: after)) (.array (before ++ j :: after))
  | left {left right : Form} {key key' : Json.Text} {i j : Json} :
    key.Resolves Arm.left.key.toList → key'.Resolves Arm.left.key.toList → Alike left i j →
    Alike (.sum left right) (.object [(key, i)]) (.object [(key', j)])
  | right {left right : Form} {key key' : Json.Text} {i j : Json} :
    key.Resolves Arm.right.key.toList → key'.Resolves Arm.right.key.toList → Alike right i j →
    Alike (.sum left right) (.object [(key, i)]) (.object [(key', j)])
  | pair {fst snd : Form} {i j i' j' : Json} : Alike fst i i' → Alike snd j j' →
    Alike (.prod fst snd) (.array [i, j]) (.array [i', j'])
  | object {fst snd : Form} {key key' : Json.Text} (i j : Json) : key.Resolves fstKey →
    key'.Resolves sndKey → Alike (.prod fst snd) (.array [i, j]) (.object [(key, i), (key', j)])
  | reorder {fst snd : Form} {ms ms' : List (Json.Text × Json)} : ms.Perm ms' →
    Alike (.prod fst snd) (.object ms) (.object ms')
  | fst {fst snd : Form} {key key' : Json.Text} {i j : Json} (ms : List (Json.Text × Json)) :
    key.Resolves fstKey → key'.Resolves fstKey → Alike fst i j →
    Alike (.prod fst snd) (.object ((key, i) :: ms)) (.object ((key', j) :: ms))
  | snd {fst snd : Form} {key key' : Json.Text} {i j : Json} (ms : List (Json.Text × Json)) :
    key.Resolves sndKey → key'.Resolves sndKey → Alike snd i j →
    Alike (.prod fst snd) (.object ((key, i) :: ms)) (.object ((key', j) :: ms))
  | skipped {fst snd : Form} {key : Json.Text} {name : List Char} (i : Json)
    (ms : List (Json.Text × Json)) : key.Resolves name → name ≠ fstKey → name ≠ sndKey →
    Alike (.prod fst snd) (.object ms) (.object ((key, i) :: ms))

/-! ### The parts of a product among its members -/

section Members

variable {p q : Json} {key : Json.Text} {ms : List (Json.Text × Json)}

theorem Parts.perm {ms' : List (Json.Text × Json)} (h : ms.Perm ms')
    (hparts : Parts p q (.object ms)) : Parts p q (.object ms') := by
  cases hparts with
  | members hresolves hresolves' hskipped hperm =>
    exact .members hresolves hresolves' hskipped (h.symm.trans hperm)

theorem parts_skipped {name : List Char} {i : Json} (hresolves : key.Resolves name)
    (hother : name ≠ fstKey) (hother' : name ≠ sndKey) :
    Parts p q (.object ((key, i) :: ms)) ↔ Parts p q (.object ms) := by
  have hresolved := Json.Text.resolve?_eq_some_iff.mpr hresolves
  rw [← parts?_eq_some_iff, ← parts?_eq_some_iff, parts?_object, parts?_object,
    member?_cons_of_not (by simp [hasKey, hresolved, hother]),
    member?_cons_of_not (by simp [hasKey, hresolved, hother'])]
  simp [hresolved]

theorem member?_cons_of_hasKey {name : List Char} {i j : Json}
    (hhas : hasKey name (key, i) = true) :
    member? name ((key, i) :: ms) = some j ↔ ms.filter (hasKey name) = [] ∧ i = j := by
  rw [member?_eq_some_iff, List.filter_cons_of_pos hhas]
  simp [and_comm]

/-- What there is besides the first part does not depend on it. -/
theorem parts_fst {i : Json} (hresolves : key.Resolves fstKey) :
    Parts p q (.object ((key, i) :: ms)) ↔ i = p ∧ (∀ m ∈ ms, m.1.resolve?.isSome = true) ∧
      ms.filter (hasKey fstKey) = [] ∧ member? sndKey ms = some q := by
  have hresolved := Json.Text.resolve?_eq_some_iff.mpr hresolves
  rw [← parts?_eq_some_iff, parts?_object,
    member?_cons_of_hasKey (hasKey_eq_true_iff.mpr hresolves),
    member?_cons_of_not (not_hasKey_snd hresolves), List.forall_mem_cons]
  simp only [hresolved, Option.isSome_some, true_and]
  constructor
  · rintro ⟨htexts, ⟨hsingle, rfl⟩, hsecond⟩
    exact ⟨rfl, htexts, hsingle, hsecond⟩
  · rintro ⟨rfl, htexts, hsingle, hsecond⟩
    exact ⟨htexts, ⟨hsingle, rfl⟩, hsecond⟩

/-- What there is besides the second part does not depend on it. -/
theorem parts_snd {i : Json} (hresolves : key.Resolves sndKey) :
    Parts p q (.object ((key, i) :: ms)) ↔ i = q ∧ (∀ m ∈ ms, m.1.resolve?.isSome = true) ∧
      ms.filter (hasKey sndKey) = [] ∧ member? fstKey ms = some p := by
  have hresolved := Json.Text.resolve?_eq_some_iff.mpr hresolves
  rw [← parts?_eq_some_iff, parts?_object, member?_cons_of_not (not_hasKey_fst hresolves),
    member?_cons_of_hasKey (hasKey_eq_true_iff.mpr hresolves), List.forall_mem_cons]
  simp only [hresolved, Option.isSome_some, true_and]
  constructor
  · rintro ⟨htexts, hfirst, hsingle, rfl⟩
    exact ⟨rfl, htexts, hsingle, hfirst⟩
  · rintro ⟨rfl, htexts, hsingle, hfirst⟩
    exact ⟨htexts, hfirst, hsingle, rfl⟩

theorem parts_array {i j : Json} : Parts p q (.array [i, j]) ↔ i = p ∧ j = q := by
  rw [← parts?_eq_some_iff]
  simp [parts?]

end Members

theorem forall₂_congr_mid {α β : Type} {R : α → β → Prop} {i j : α} (hsame : ∀ x, R i x ↔ R j x)
    (before after : List α) (xs : List β) :
    List.Forall₂ R (before ++ i :: after) xs ↔ List.Forall₂ R (before ++ j :: after) xs := by
  induction before generalizing xs with
  | nil => cases xs <;> simp [hsame]
  | cons k before ih => cases xs <;> simp [ih]

theorem not_resolves_right {key : Json.Text} (h : key.Resolves Arm.left.key.toList) :
    ¬ key.Resolves Arm.right.key.toList := by
  intro h'
  have hsame := h.unique h'
  revert hsame
  decide

/-- Documents that differ only in what a form does not ask for denote the same. -/
theorem Alike.denotes {f : Form} {i j : Json} (h : f.Alike i j) (v : f.Value) :
    f.Denotes i v ↔ f.Denotes j v := by
  induction h with
  | refl => rfl
  | symm _ ih => exact (ih v).symm
  | trans _ _ ih ih' => exact (ih v).trans (ih' v)
  | text hresolves hresolves' =>
    change String at v
    simp only [Denotes, Json.string.injEq, exists_eq_left']
    constructor
    · intro h
      exact hresolves.unique h ▸ hresolves'
    · intro h
      exact hresolves'.unique h ▸ hresolves
  | item before after _ ih =>
    change List _ at v
    simp only [Denotes, Json.array.injEq, exists_eq_left']
    exact forall₂_congr_mid ih before after v
  | left hresolves hresolves' _ ih =>
    rcases v with a | b
    · simp [Denotes, hresolves, hresolves', ih]
    · simp [Denotes, not_resolves_right hresolves, not_resolves_right hresolves']
  | @right _ _ key key' i j hresolves hresolves' _ ih =>
    rcases v with a | b
    · have hother : ¬ key.Resolves Arm.left.key.toList := fun h => not_resolves_right h hresolves
      have hother' : ¬ key'.Resolves Arm.left.key.toList := fun h => not_resolves_right h hresolves'
      simp [Denotes, hother, hother']
    · simp [Denotes, hresolves, hresolves', ih]
  | pair _ _ ih ih' =>
    obtain ⟨a, b⟩ := v
    simp [Denotes, parts_array, ih, ih']
  | @object _ _ key key' i j hresolves hresolves' =>
    obtain ⟨a, b⟩ := v
    have hsecond : ∀ q, member? sndKey [(key', j)] = some q ↔ j = q := fun q => by
      rw [member?_cons_of_hasKey (hasKey_eq_true_iff.mpr hresolves')]
      simp
    have hresolved := Json.Text.resolve?_eq_some_iff.mpr hresolves'
    simp [Denotes, parts_array, parts_fst hresolves, hsecond, hresolved,
      not_hasKey_fst (m := (key', j)) hresolves']
  | reorder hperm =>
    obtain ⟨a, b⟩ := v
    have hsame : ∀ p q, Parts p q _ ↔ Parts p q _ := fun p q =>
      ⟨Parts.perm hperm, Parts.perm hperm.symm⟩
    simp only [Denotes, hsame]
  | fst ms hresolves hresolves' _ ih =>
    obtain ⟨a, b⟩ := v
    simp [Denotes, parts_fst hresolves, parts_fst hresolves', ih]
  | snd ms hresolves hresolves' _ ih =>
    obtain ⟨a, b⟩ := v
    simp [Denotes, parts_snd hresolves, parts_snd hresolves', ih]
  | skipped i ms hresolves hother hother' =>
    obtain ⟨a, b⟩ := v
    simp only [Denotes, parts_skipped hresolves hother hother']

/-! ## What a text denotes -/

/-- A text is read to the values that its document denotes, if these do not nest too deep. -/
theorem read?_eq_some_iff (f : Form) {text : String} {v : f.Value} : f.read? text = some v ↔
    (∃ j : Json, Json.Spaced j.tokens text.toList ∧ f.Denotes j v) ∧ f.nesting v ≤ maxDepth := by
  rw [read?, Option.bind_eq_some_iff]
  simp only [Json.ofText?, Json.parse?_eq_some_iff, decode?, decodeWithin?_eq_some_iff]
  constructor
  · rintro ⟨j, hspaced, hdenotes, hshallow⟩
    exact ⟨⟨j, hspaced, hdenotes⟩, hshallow⟩
  · rintro ⟨⟨j, hspaced, hdenotes⟩, hshallow⟩
    exact ⟨j, hspaced, hdenotes, hshallow⟩

/-- Texts that space the same tokens are read to the same value. -/
theorem read?_of_tokens (f : Form) {ts : List Json.Token} {text text' : String}
    (h : Json.Spaced ts text.toList) (h' : Json.Spaced ts text'.toList) :
    f.read? text = f.read? text' := by
  rw [read?, read?, Json.ofText?, Json.ofText?, Json.parse?_congr h h']

/-- Texts that hold documents which differ only in what a form does not ask for are read to the same
value. -/
theorem Alike.read? {f : Form} {i j : Json} (halike : f.Alike i j) {text text' : String}
    (h : Json.Spaced i.tokens text.toList) (h' : Json.Spaced j.tokens text'.toList) :
    f.read? text = f.read? text' := by
  rw [Form.read?, Form.read?, Json.ofText?, Json.ofText?, Json.parse?_eq_some_iff.mpr h,
    Json.parse?_eq_some_iff.mpr h', Option.bind_some, Option.bind_some]
  ext v
  rw [decode?, decode?, decodeWithin?_eq_some_iff, decodeWithin?_eq_some_iff, halike.denotes]

/-- **A text is read exactly to what its document denotes.** At a form that nests no deeper than the
reader goes, a text is read to a value if and only if it spaces the tokens of a document that
denotes the value; so neither blanks and spellings matter, nor what the form does not ask for. -/
theorem reads_denoted (f : Form) (hshallow : f.depth ≤ maxDepth) :
    (∀ text v, f.read? text = some v ↔
      ∃ j : Json, Json.Spaced j.tokens text.toList ∧ f.Denotes j v) ∧
    (∀ ts text text', Json.Spaced ts text.toList → Json.Spaced ts text'.toList →
      f.read? text = f.read? text') ∧
    ∀ i j text text', f.Alike i j → Json.Spaced i.tokens text.toList →
      Json.Spaced j.tokens text'.toList → f.read? text = f.read? text' := by
  refine ⟨fun text v => ?_, fun ts text text' => f.read?_of_tokens,
    fun i j text text' halike => halike.read?⟩
  rw [read?_eq_some_iff]
  exact and_iff_left (Nat.le_trans (f.nesting_le_depth v) hshallow)

/-- Lists of numbers, each with a mark. -/
def marks : Form :=
  .list (.prod (.integer .int) .bool)

/-- A marked number as an object: the second part before the first, whose key is escaped, and a
member between them that is skipped. -/
def marksText : String :=
  " [ \x7b \"snd\": true, \"x\": [1e3, \"\\ud800\"], \"\\u0066st\": -1 \x7d ]"

/-- The same number as a pair. -/
def marksPair : String :=
  "[[-1,true]]"

/-- The member that is skipped. -/
def skippedMember : Json.Text × Json :=
  (Json.Text.ofString "x", .array [.fractional, .string [.surrogate 0xD800]])

/-- The two ways to write a marked number. -/
theorem alike_marks : marks.Alike (.array [.array [.integer true 1, .bool true]])
    (.array [.object [(Json.Text.ofString "snd", .bool true), skippedMember,
      (Json.Text.ofString "fst", .integer true 1)]]) := by
  refine .item [] [] (.trans (.object _ _ (.ofString "fst") (.ofString "snd")) ?_)
  refine .trans (.skipped skippedMember.2 _ (.ofString "x") (by decide) (by decide)) ?_
  exact .reorder (@List.perm_append_comm _ [_, _] [_])

theorem reads_denoted_specimen :
    marks.depth ≤ maxDepth ∧
    (∃ j : Json, Json.Spaced j.tokens marksText.toList ∧
      marks.Denotes j [(⟨-1, by decide⟩, true)]) ∧
    marks.read? marksPair = marks.read? marksText := by
  have hshallow : marks.depth ≤ maxDepth := by decide
  obtain ⟨hexact, -, halike⟩ := marks.reads_denoted hshallow
  refine ⟨hshallow, (hexact marksText _).mp (by decide +kernel), ?_⟩
  exact halike _ _ marksPair marksText alike_marks (Json.parse?_eq_some_iff.mp (by cbv))
    (Json.parse?_eq_some_iff.mp (by cbv))

/-- The text of a pair of numbers, among its members one whose key is half of a surrogate pair. -/
def unpairedText : String :=
  "\x7b\"\\ud800\":0,\"fst\":1,\"snd\":2\x7d"

/-- A member that is skipped has a key all the same. Where this is no text, a document with one
first and one second part denotes nothing. -/
theorem refuses_unpaired_key :
    Json.Spaced (Json.object [([.surrogate 0xD800], .integer false 0),
      (Json.Text.ofString "fst", .integer false 1),
      (Json.Text.ofString "snd", .integer false 2)]).tokens unpairedText.toList ∧
    (∀ name, ¬ Json.Text.Resolves [.surrogate 0xD800] name) ∧
    (Form.prod (.integer .int) (.integer .int)).read? unpairedText = none := by
  refine ⟨Json.parse?_eq_some_iff.mp (by cbv), ?_, by decide +kernel⟩
  intro name hresolves
  cases hresolves

end Form

end Relay
