import Relay.Form
import Relay.Proofs.Json.Reading

/-!
# The layout of written values

What the text of a value looks like, over the form of the value:

* `Form.write_eq_layout`: the text, spelled out. Of a product, the member `fst` comes before `snd`;
* `Form.isBlank_of_mem_outside`: there is no blank in it but inside its strings. The texts without
  such blanks (`Form.Compact`) are closed under what the layout puts together.
-/

namespace Relay

namespace Form

/-! ## The layout of a text -/

/-- A string as it stands in a text. -/
def quote (s : String) : List Char :=
  '"' :: s.toList.flatMap Json.escape ++ ['"']

/-- A member of an object as it stands in a text. -/
def quoteMember (key : String) (value : List Char) : List Char :=
  quote key ++ ':' :: value

/-- The text of a value, spelled out over its form. -/
def layout : (f : Form) → f.Value → List Char
  | .unit, _ => ['n', 'u', 'l', 'l']
  | .bool, true => ['t', 'r', 'u', 'e']
  | .bool, false => ['f', 'a', 'l', 's', 'e']
  | .integer _, i => Decimal.ofInt i.val
  | .text, s => quote s
  | .list item, xs => '[' :: List.intercalate [','] (xs.map item.layout) ++ [']']
  | .sum left _, .inl a => '{' :: quoteMember "Left" (left.layout a) ++ ['}']
  | .sum _ right, .inr b => '{' :: quoteMember "Right" (right.layout b) ++ ['}']
  | .prod fst snd, (a, b) =>
    '{' :: (quoteMember "fst" (fst.layout a) ++ ',' :: quoteMember "snd" (snd.layout b)) ++ ['}']

theorem print_ofString (s : String) : (Json.Text.ofString s).print = quote s := by
  simp [Json.Text.print, Json.Text.ofString, quote, List.flatMap_map, Json.Piece.print]

theorem print_ofInt (i : Int) : (Json.ofInt i).print = Decimal.ofInt i := by
  cases i with
  | ofNat n =>
    have hnonneg : decide (Int.ofNat n < 0) = false := by simp
    rw [Json.ofInt, hnonneg]
    rfl
  | negSucc n => simp [Json.ofInt, Json.print, Decimal.ofInt]

theorem printItems_eq_intercalate (js : List Json) :
    Json.printItems js = List.intercalate [','] (js.map Json.print) ++ [']'] := by
  induction js with
  | nil => rfl
  | cons j js ih =>
    cases js with
    | nil => simp [Json.printItems, List.intercalate]
    | cons next js =>
      rw [Json.printItems_cons_cons, ih]
      simp [List.intercalate]

theorem print_ofMember (key : String) (j : Json) :
    (Json.ofMembers [(key, j)]).print = '{' :: quoteMember key j.print ++ ['}'] := by
  simp [Json.ofMembers, Json.print, Json.printMembers, print_ofString, quoteMember]

theorem print_ofMembers_pair (key key' : String) (i j : Json) :
    (Json.ofMembers [(key, i), (key', j)]).print =
      '{' :: (quoteMember key i.print ++ ',' :: quoteMember key' j.print) ++ ['}'] := by
  simp [Json.ofMembers, Json.print, Json.printMembers, print_ofString, quoteMember]

theorem print_encode (f : Form) (v : f.Value) : (f.encode v).print = f.layout v := by
  induction f with
  | unit => rfl
  | bool => rcases v with rfl | rfl <;> rfl
  | integer kind => exact print_ofInt _
  | text => exact print_ofString v
  | list item ih =>
    change List item.Value at v
    have hitems : (v.map item.encode).map Json.print = v.map item.layout := by
      rw [List.map_map]
      exact List.map_congr_left fun x _ => ih x
    change '[' :: Json.printItems (v.map item.encode) = _
    rw [printItems_eq_intercalate, hitems]
    rfl
  | sum left right ihl ihr =>
    rcases v with a | b
    · rw [encode, print_ofMember, ihl]
      rfl
    · rw [encode, print_ofMember, ihr]
      rfl
  | prod fst snd iha ihb =>
    obtain ⟨a, b⟩ := v
    rw [encode, print_ofMembers_pair, iha, ihb]
    rfl

/-- The text of a value is the one that its form lays out. -/
theorem write_eq_layout (f : Form) (v : f.Value) : f.write v = String.ofList (f.layout v) := by
  rw [write, Json.compact, print_encode]

/-! ## Blanks -/

/-- The characters of a text outside its strings. The flag says whether the text starts inside
one. -/
def outside : Bool → List Char → List Char
  | false, c :: cs => if c = '"' then outside true cs else c :: outside false cs
  | true, '\\' :: _ :: cs => outside true cs
  | true, c :: cs => if c = '"' then outside false cs else outside true cs
  | _, [] => []

/-- A text that leaves no string open and has no blank outside its strings. -/
def Compact (cs : List Char) : Prop :=
  ∃ plain, (∀ c ∈ plain, Json.isBlank c = false) ∧
    ∀ rest, outside false (cs ++ rest) = plain ++ outside false rest

namespace Compact

theorem nil : Compact [] :=
  ⟨[], by simp, fun _ => rfl⟩

theorem append {cs ds : List Char} (hc : Compact cs) (hd : Compact ds) : Compact (cs ++ ds) := by
  obtain ⟨ps, hblank, heq⟩ := hc
  obtain ⟨qs, hblank', heq'⟩ := hd
  refine ⟨ps ++ qs, List.forall_mem_append.mpr ⟨hblank, hblank'⟩, fun rest => ?_⟩
  rw [List.append_assoc, heq, heq', List.append_assoc]

theorem cons {c : Char} {cs : List Char} (hquote : c ≠ '"') (hblank : Json.isBlank c = false)
    (hc : Compact cs) : Compact (c :: cs) := by
  obtain ⟨ps, hblanks, heq⟩ := hc
  refine ⟨c :: ps, List.forall_mem_cons.mpr ⟨hblank, hblanks⟩, fun rest => ?_⟩
  rw [List.cons_append, outside, if_neg hquote, heq]
  rfl

theorem of_forall {cs : List Char} (h : ∀ c ∈ cs, c ≠ '"' ∧ Json.isBlank c = false) :
    Compact cs := by
  induction cs with
  | nil => exact nil
  | cons c cs ih =>
    have hc := h c List.mem_cons_self
    exact cons hc.1 hc.2 (ih fun d hd => h d (List.mem_cons_of_mem _ hd))

theorem of_all {cs : List Char} (h : (cs.all fun c => c ≠ '"' && !Json.isBlank c) = true) :
    Compact cs := by
  refine of_forall fun c hc => ?_
  have hboth := List.all_eq_true.mp h c hc
  simpa using hboth

end Compact

theorem outside_raw {c : Char} (hquote : c ≠ '"') (hslash : c ≠ '\\') (rest : List Char) :
    outside true (c :: rest) = outside true rest := by
  rw [outside, if_neg hquote]
  exact fun _ _ h => absurd h hslash

/-- Nothing of an escape is outside the string that it stands in. -/
theorem outside_escape (c : Char) (rest : List Char) :
    outside true (Json.escape c ++ rest) = outside true rest := by
  obtain ⟨d, hwritten, -⟩ | ⟨hwritten, -⟩ | ⟨hwritten, hquote, hslash, -⟩ := Json.escape_cases c
  · rw [hwritten]
    rfl
  · have hdigit : ∀ d < 16, Json.hexDigit d ≠ '"' ∧ Json.hexDigit d ≠ '\\' := by decide
    have hskip : ∀ (n : Nat) (cs : List Char),
        outside true (Json.hexDigit (n % 16) :: cs) = outside true cs := fun n cs =>
      outside_raw (hdigit _ (Nat.mod_lt _ (by decide))).1 (hdigit _ (Nat.mod_lt _ (by decide))).2 cs
    rw [hwritten]
    simp [Json.hex4, outside, hskip]
  · rw [hwritten]
    exact outside_raw hquote hslash rest

theorem Compact.quote (s : String) : Compact (quote s) := by
  refine ⟨[], by simp, fun rest => ?_⟩
  have hbody : ∀ cs : List Char,
      outside true (cs.flatMap Json.escape ++ '"' :: rest) = outside false rest := by
    intro cs
    induction cs with
    | nil => rfl
    | cons c cs ih => rw [List.flatMap_cons, List.append_assoc, outside_escape, ih]
  simp [Form.quote, outside, hbody]

theorem Compact.intercalate {css : List (List Char)} (h : ∀ cs ∈ css, Compact cs) :
    Compact (List.intercalate [','] css) := by
  induction css with
  | nil => exact nil
  | cons cs css ih =>
    have hcs := h cs List.mem_cons_self
    have hothers := ih fun ds hds => h ds (List.mem_cons_of_mem _ hds)
    cases css with
    | nil => simpa [List.intercalate] using hcs
    | cons ds css =>
      have hcomma := hcs.append (hothers.cons (c := ',') (by decide) (by decide))
      simpa [List.intercalate] using hcomma

theorem Compact.member (key : String) {value : List Char} (h : Compact value) :
    Compact (quoteMember key value) :=
  (quote key).append (h.cons (by decide) (by decide))

theorem Compact.array {cs : List Char} (h : Compact cs) : Compact ('[' :: cs ++ [']']) :=
  (h.append (of_all (by decide))).cons (by decide) (by decide)

theorem Compact.object {cs : List Char} (h : Compact cs) : Compact ('{' :: cs ++ ['}']) :=
  (h.append (of_all (by decide))).cons (by decide) (by decide)

theorem compact_ofNat (n : Nat) : Compact (Decimal.ofNat n) := by
  refine .of_forall fun c hc => ?_
  have hdigit := Decimal.isDigit_of_mem_ofNat hc
  have hother : ∀ d, d.isDigit = false → c ≠ d := by
    rintro d hd rfl
    simp [hdigit] at hd
  have hplain : Json.isBlank c = false := by
    simp [Json.isBlank, hother]
  exact ⟨hother '"' (by decide), hplain⟩

theorem compact_ofInt (i : Int) : Compact (Decimal.ofInt i) := by
  cases i with
  | ofNat n => exact compact_ofNat n
  | negSucc n => exact (compact_ofNat (n + 1)).cons (by decide) (by decide)

/-- The text of a value has no blank outside its strings. -/
theorem compact_layout (f : Form) (v : f.Value) : Compact (f.layout v) := by
  induction f with
  | unit =>
    rw [layout]
    exact .of_all (by decide)
  | bool => rcases v with rfl | rfl <;> exact .of_all (by decide)
  | integer kind => exact compact_ofInt _
  | text => exact .quote v
  | list item ih =>
    change List item.Value at v
    refine .array (.intercalate fun cs hcs => ?_)
    obtain ⟨x, -, rfl⟩ := List.mem_map.mp hcs
    exact ih x
  | sum left right ihl ihr =>
    rcases v with a | b
    · exact ((ihl a).member "Left").object
    · exact ((ihr b).member "Right").object
  | prod fst snd iha ihb =>
    obtain ⟨a, b⟩ := v
    have hcomma := ((ihb b).member "snd").cons (c := ',') (by decide) (by decide)
    exact (((iha a).member "fst").append hcomma).object

/-- **There is no blank in the text of a value but inside its strings.** -/
theorem isBlank_of_mem_outside (f : Form) (v : f.Value) :
    ∀ c ∈ outside false (f.write v).toList, Json.isBlank c = false := by
  obtain ⟨plain, hblank, heq⟩ := f.compact_layout v
  have hwhole := heq []
  rw [List.append_nil] at hwhole
  rw [write_eq_layout, String.toList_ofList, hwhole]
  simpa [outside] using hblank

end Form

end Relay
