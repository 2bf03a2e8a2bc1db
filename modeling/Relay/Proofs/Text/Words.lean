import Mathlib.Data.List.Basic
import Relay.Text.Blank

/-!
# The words of a text

`Parted` says what the words of a text are by where the white space is: white space may stand before
the first word and behind the last, and has to stand between any two.

* `words_append`: what white space keeps apart has its words apart;
* `words_eq_iff`: a text is parted into its words, and in no other way;
* `Parted.joinWith`: words that any white space is put between are the words of the text.
-/

namespace Relay.Text

/-- White space, or nothing at all. -/
def IsGap (cs : List Char) : Prop :=
  ∀ c ∈ cs, isBlank c = true

instance (cs : List Char) : Decidable (IsGap cs) :=
  List.decidableBAll (fun c => isBlank c = true) cs

/-- Characters none of which is white space, and at least one of them. -/
def IsWord (cs : List Char) : Prop :=
  cs ≠ [] ∧ ∀ c ∈ cs, isBlank c = false

/-- The maximal runs of a text without white space: each starts the text or follows white space, and
ends the text or is followed by white space. -/
inductive Parted : List (List Char) → List Char → Prop where
  | gap {gap : List Char} (hblank : IsGap gap) : Parted [] gap
  | word {gap w rest : List Char} {ws : List (List Char)} (hblank : IsGap gap) (hword : IsWord w)
    (hends : ∀ c ∈ rest.head?, isBlank c = true) (hbehind : Parted ws rest) :
    Parted (w :: ws) (gap ++ w ++ rest)

theorem IsGap.nil : IsGap [] := by
  intro c hc
  cases hc

theorem IsGap.cons {c : Char} {cs : List Char} (hc : isBlank c = true) (hcs : IsGap cs) :
    IsGap (c :: cs) :=
  List.forall_mem_cons.mpr ⟨hc, hcs⟩

theorem IsGap.append {cs ds : List Char} (hc : IsGap cs) (hd : IsGap ds) : IsGap (cs ++ ds) :=
  List.forall_mem_append.mpr ⟨hc, hd⟩

theorem IsGap.head {cs : List Char} (h : IsGap cs) : ∀ c ∈ cs.head?, isBlank c = true :=
  fun c hc => h c (List.mem_of_mem_head? hc)

theorem IsGap.head_append {cs : List Char} (h : IsGap cs) (hsome : cs ≠ []) (rest : List Char) :
    ∀ c ∈ (cs ++ rest).head?, isBlank c = true := by
  rw [List.head?_append_of_ne_nil cs hsome]
  exact h.head

/-! ## Texts one behind the other -/

variable {gap w : List Char}

theorem words_append_cons (s t : List Char) {c : Char} (hblank : isBlank c = true) :
    words (s ++ c :: t) = words s ++ words t := by
  rw [words, List.splitOnP_append_cons s t hblank, List.filter_append, words, words]

theorem words_nil : words [] = [] :=
  rfl

theorem words_cons {c : Char} (hblank : isBlank c = true) (t : List Char) :
    words (c :: t) = words t := by
  simpa [words_nil] using words_append_cons [] t hblank

/-- White space before a text adds no word. -/
theorem words_gap_append (hblank : IsGap gap) (t : List Char) : words (gap ++ t) = words t := by
  induction gap with
  | nil => rfl
  | cons c gap ih =>
    obtain ⟨hc, hrest⟩ := List.forall_mem_cons.mp hblank
    rw [List.cons_append, words_cons hc, ih hrest]

/-- What white space keeps apart has its words apart. -/
theorem words_append (hblank : IsGap gap) (hsome : gap ≠ []) (s t : List Char) :
    words (s ++ gap ++ t) = words s ++ words t := by
  obtain ⟨c, gap, rfl⟩ := List.exists_cons_of_ne_nil hsome
  obtain ⟨hc, hrest⟩ := List.forall_mem_cons.mp hblank
  rw [List.append_assoc, List.cons_append, words_append_cons s _ hc, words_gap_append hrest]

theorem words_of_isWord (hword : IsWord w) : words w = [w] := by
  rw [words, List.splitOnP_eq_singleton hword.2]
  simp [hword.1]

/-! ## There is one way to part a text -/

variable {ws : List (List Char)} {cs : List Char}

theorem Parted.words_eq (h : Parted ws cs) : words cs = ws := by
  induction h with
  | @gap gap hblank =>
    have honly := words_gap_append hblank []
    rwa [List.append_nil, words_nil] at honly
  | @word gap w rest ws hblank hword hends hbehind ih =>
    rw [List.append_assoc, words_gap_append hblank]
    cases rest with
    | nil =>
      rw [words_nil] at ih
      rw [List.append_nil, words_of_isWord hword, ih]
    | cons c rest =>
      have hc : isBlank c = true := hends c rfl
      rw [words_append_cons w rest hc, words_of_isWord hword, ← words_cons hc, ih,
        List.singleton_append]

/-- White space before a text leaves its words as they are. -/
theorem Parted.cons_blank (h : Parted ws cs) {c : Char} (hc : isBlank c = true) :
    Parted ws (c :: cs) := by
  cases h with
  | gap hblank => exact .gap (.cons hc hblank)
  | word hblank hword hends hbehind => exact .word (.cons hc hblank) hword hends hbehind

/-- A character before a text starts a word, and the first word of the text goes on with it if there
is no white space before that. -/
theorem Parted.cons_other (h : Parted ws cs) {c : Char} (hc : isBlank c = false) :
    ∃ ws', Parted ws' (c :: cs) := by
  have halone : IsWord [c] := ⟨List.cons_ne_nil c [], List.forall_mem_singleton.mpr hc⟩
  cases h with
  | gap hblank => exact ⟨[[c]], .word .nil halone hblank.head (.gap hblank)⟩
  | @word gap w rest ws hblank hword hends hbehind =>
    cases gap with
    | nil =>
      have hlonger : IsWord (c :: w) :=
        ⟨List.cons_ne_nil c w, List.forall_mem_cons.mpr ⟨hc, hword.2⟩⟩
      exact ⟨(c :: w) :: ws, .word .nil hlonger hends hbehind⟩
    | cons b gap =>
      have hfront := hblank.head_append (List.cons_ne_nil b gap) (w ++ rest)
      rw [← List.append_assoc] at hfront
      exact ⟨[c] :: w :: ws, .word .nil halone hfront (.word hblank hword hends hbehind)⟩

theorem exists_parted (cs : List Char) : ∃ ws, Parted ws cs := by
  induction cs with
  | nil => exact ⟨[], .gap .nil⟩
  | cons c cs ih =>
    obtain ⟨ws, h⟩ := ih
    cases hc : isBlank c with
    | true => exact ⟨ws, h.cons_blank hc⟩
    | false => exact h.cons_other hc

/-- A text is parted into its words, and in no other way. -/
theorem words_eq_iff : words cs = ws ↔ Parted ws cs := by
  refine ⟨?_, Parted.words_eq⟩
  rintro rfl
  obtain ⟨ws, h⟩ := exists_parted cs
  rwa [h.words_eq]

/-! ## Words put together -/

/-- Words with a text between any two: behind the word with the index `i`, the text `sep i`. -/
def joinWith (sep : Nat → List Char) : List (List Char) → List Char
  | [] => []
  | [w] => w
  | w :: v :: ws => w ++ sep 0 ++ joinWith (fun i => sep (i + 1)) (v :: ws)

theorem joinWith_const (sep : List Char) (ws : List (List Char)) :
    joinWith (fun _ => sep) ws = sep.intercalate ws := by
  induction ws with
  | nil => rfl
  | cons w ws ih =>
    cases ws with
    | nil => exact (List.intercalate_singleton ..).symm
    | cons v ws => rw [joinWith, ih, List.intercalate_cons_cons]

/-- Words that any white space is put between, and any before and behind, are the words of the
text. -/
theorem Parted.joinWith {sep : Nat → List Char} {lead trail : List Char}
    (hparts : ∀ w ∈ ws, IsWord w) (hblank : ∀ i, IsGap (sep i)) (hsome : ∀ i, sep i ≠ [])
    (hbefore : IsGap lead) (hafter : IsGap trail) :
    Parted ws (lead ++ joinWith sep ws ++ trail) := by
  induction ws generalizing lead sep with
  | nil =>
    rw [Text.joinWith, List.append_nil]
    exact .gap (hbefore.append hafter)
  | cons w ws ih =>
    have hword : IsWord w := hparts w List.mem_cons_self
    have hothers : ∀ v ∈ ws, IsWord v := fun v hv => hparts v (List.mem_cons_of_mem w hv)
    cases ws with
    | nil => exact .word hbefore hword hafter.head (.gap hafter)
    | cons v ws =>
      have hbehind := ih hothers (fun i => hblank (i + 1)) (fun i => hsome (i + 1)) (hblank 0)
      have hends := (hblank 0).head_append (hsome 0)
        (Text.joinWith (fun i => sep (i + 1)) (v :: ws) ++ trail)
      rw [← List.append_assoc] at hends
      have hparted := Parted.word hbefore hword hends hbehind
      simpa [Text.joinWith] using hparted

end Relay.Text
