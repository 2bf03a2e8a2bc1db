import Relay.Proofs.Json.Token

/-!
# What a JSON text holds

A text is a row of tokens with blanks between them (`Spaced`), and a document is a row of tokens
(`Json.tokens`). `parse?` reads a document from a text exactly if the text spaces the tokens of the
document:

* `spaced_of_read`, `read_of_spaced`: what the readers take from a text are the tokens of what they
  give, and they take all that is there to take;
* `parse?_eq_some_iff`: the two together, for a whole text;
* `Spaced.unique`: a text has one row of tokens, so that blanks and spellings do not matter.
-/

namespace Relay.Json

/-! ## Tokens -/

/-- A punctuation mark, or a document without parts. -/
inductive Token where
  | mark (m : Mark)
  | leaf (l : Leaf)
  deriving DecidableEq

namespace Token

/-- How a token may be spelled. -/
inductive Spells : Token → List Char → Prop where
  | mark (m : Mark) : Spells (.mark m) [m.char]
  | leaf {l : Leaf} {s : List Char} : l.Spells s → Spells (.leaf l) s

/-- Whether a token is a number. -/
def isNumber : Token → Bool
  | .mark _ => false
  | .leaf l => l.isNumber

end Token

mutual

/-- The tokens of a document. -/
def tokens : Json → List Token
  | .null => [.leaf .null]
  | .bool b => [.leaf (.bool b)]
  | .integer negative n => [.leaf (.integer negative n)]
  | .fractional => [.leaf .fractional]
  | .string t => [.leaf (.string t)]
  | .array items => .mark .openArray :: itemTokens items
  | .object members => .mark .openObject :: memberTokens members

/-- The tokens of the items of an array, commas between them, and of the closing bracket. -/
def itemTokens : List Json → List Token
  | [] => [.mark .closeArray]
  | [item] => item.tokens ++ [.mark .closeArray]
  | item :: rest => item.tokens ++ .mark .comma :: itemTokens rest

/-- The tokens of the members of an object, commas between them, and of the closing brace. -/
def memberTokens : List (Text × Json) → List Token
  | [] => [.mark .closeObject]
  | [(key, value)] =>
    .leaf (.string key) :: .mark .colon :: (value.tokens ++ [.mark .closeObject])
  | (key, value) :: rest =>
    .leaf (.string key) :: .mark .colon :: (value.tokens ++ .mark .comma :: memberTokens rest)

end

/-- A text that spells some tokens, with blanks before, between and after them. Two numbers do not
touch. -/
inductive Spaced : List Token → List Char → Prop where
  | nil : Spaced [] []
  | blank {c : Char} {ts : List Token} {cs : List Char} : isBlank c = true → Spaced ts cs →
    Spaced ts (c :: cs)
  | token {t : Token} {s : List Char} {ts : List Token} {cs : List Char} : t.Spells s →
    (t.isNumber = true → Decimal.EndsRun cs) → Spaced ts cs → Spaced (t :: ts) (s ++ cs)

theorem Leaf.tokens_json (l : Leaf) : l.json.tokens = [.leaf l] := by
  cases l <;> rfl

/-- A document starts with a leaf or an opening mark. -/
theorem exists_tokens (j : Json) : ∃ t ts, j.tokens = t :: ts ∧
    ((∃ l, t = .leaf l) ∨ t = .mark .openArray ∨ t = .mark .openObject) := by
  cases j with
  | null | bool | integer | fractional | string => exact ⟨_, _, rfl, .inl ⟨_, rfl⟩⟩
  | array => exact ⟨_, _, rfl, .inr (.inl rfl)⟩
  | object => exact ⟨_, _, rfl, .inr (.inr rfl)⟩

theorem itemTokens_cons_cons (j next : Json) (js : List Json) :
    itemTokens (j :: next :: js) = j.tokens ++ .mark .comma :: itemTokens (next :: js) := by
  rw [itemTokens]
  exact fun h => nomatch h

theorem memberTokens_cons_cons (key : Text) (j : Json) (next : Text × Json)
    (ms : List (Text × Json)) :
    memberTokens ((key, j) :: next :: ms) = .leaf (.string key) :: .mark .colon ::
      (j.tokens ++ .mark .comma :: memberTokens (next :: ms)) := by
  rw [memberTokens]
  exact fun h => nomatch h

/-! ## Spaced tokens -/

/-- The first character of a token. -/
theorem Token.Spells.head {t : Token} {s : List Char} (h : t.Spells s) :
    ∃ c cs, s = c :: cs ∧ (Leaf.IsStart c ∨ ∃ m : Mark, c = m.char) := by
  cases h with
  | mark m => exact ⟨_, _, rfl, .inr ⟨m, rfl⟩⟩
  | leaf h =>
    obtain ⟨c, cs, rfl, hstart⟩ := h.head
    exact ⟨c, cs, rfl, .inl hstart⟩

theorem Token.Spells.not_blank {t : Token} {c : Char} {cs : List Char} (h : t.Spells (c :: cs)) :
    isBlank c = false := by
  obtain ⟨d, ds, hsame, hstart | ⟨m, rfl⟩⟩ := h.head
  · obtain ⟨rfl, rfl⟩ := List.cons.inj hsame
    have hother : ∀ d : Char, d.isDigit = false → d ∉ ['-', 'n', 't', 'f', '"'] → c ≠ d :=
      fun d => hstart.ne
    simp [isBlank, hother]
  · obtain ⟨rfl, rfl⟩ := List.cons.inj hsame
    cases m <;> rfl

namespace Spaced

theorem of_skipBlanks {ts : List Token} {cs : List Char} (h : Spaced ts (skipBlanks cs)) :
    Spaced ts cs := by
  induction cs with
  | nil => exact h
  | cons c cs ih =>
    by_cases hblank : isBlank c = true
    · rw [skipBlanks, List.dropWhile_cons_of_pos hblank] at h
      exact .blank hblank (ih h)
    · rwa [skipBlanks, List.dropWhile_cons_of_neg hblank] at h

/-- What there is of a text that spaces no tokens are blanks. -/
theorem skipBlanks_nil {cs : List Char} (h : Spaced [] cs) : skipBlanks cs = [] := by
  generalize hnone : ([] : List Token) = ts at h
  induction h with
  | nil => rfl
  | blank hblank _ ih =>
    rw [skipBlanks, List.dropWhile_cons_of_pos hblank]
    exact ih hnone
  | token => cases hnone

/-- After the blanks comes the first token, and after it the others. -/
theorem skipBlanks_cons {t : Token} {ts : List Token} {cs : List Char} (h : Spaced (t :: ts) cs) :
    ∃ s rest, t.Spells s ∧ skipBlanks cs = s ++ rest ∧
      (t.isNumber = true → Decimal.EndsRun rest) ∧ Spaced ts rest := by
  generalize hsome : t :: ts = all at h
  induction h with
  | nil => cases hsome
  | blank hblank _ ih =>
    rw [skipBlanks, List.dropWhile_cons_of_pos hblank]
    exact ih hsome
  | @token t s ts cs hspells hends hothers =>
    cases hsome
    obtain ⟨c, s, rfl, -⟩ := hspells.head
    exact ⟨_, cs, hspells, Json.skipBlanks_cons _ hspells.not_blank, hends, hothers⟩

theorem mark {m : Mark} {ts : List Token} {cs : List Char} (h : Spaced (.mark m :: ts) cs) :
    ∃ rest, skipBlanks cs = m.char :: rest ∧ Spaced ts rest := by
  obtain ⟨s, rest, hspells, hsplit, -, hothers⟩ := h.skipBlanks_cons
  cases hspells
  exact ⟨rest, hsplit, hothers⟩

theorem cons_mark (m : Mark) {ts : List Token} {cs : List Char} (h : Spaced ts cs) :
    Spaced (.mark m :: ts) (m.char :: cs) :=
  .token (.mark m) Bool.noConfusion h

theorem of_mark {m : Mark} {ts : List Token} {cs rest : List Char}
    (hsplit : skipBlanks cs = m.char :: rest) (h : Spaced ts rest) : Spaced (.mark m :: ts) cs := by
  refine of_skipBlanks ?_
  rw [hsplit]
  exact .cons_mark m h

/-- What follows a number does not belong to it. -/
theorem endsNumber {ts : List Token} {cs : List Char} (h : Spaced ts cs)
    (hends : Decimal.EndsRun cs) : EndsNumber cs := by
  cases h with
  | nil => exact endsNumber_nil
  | @blank c ts cs hblank _ =>
    refine endsNumber_cons cs ⟨hends c rfl, ?_, ?_, ?_⟩
    all_goals
      rintro rfl
      cases hblank
  | token hspells _ _ =>
    obtain ⟨c, cs, rfl, hstart⟩ := hspells.head
    refine endsNumber_cons _ ⟨hends c rfl, ?_⟩
    obtain hstart | ⟨m, rfl⟩ := hstart
    · exact ⟨hstart.ne rfl (by decide), hstart.ne rfl (by decide), hstart.ne rfl (by decide)⟩
    · cases m <;> decide

theorem length_le {ts : List Token} {cs : List Char} (h : Spaced ts cs) :
    ts.length ≤ cs.length := by
  induction h with
  | nil => exact Nat.le_refl 0
  | blank _ _ ih => exact Nat.le_succ_of_le ih
  | token hspells _ _ ih =>
    obtain ⟨c, s, rfl, -⟩ := hspells.head
    rw [List.length_cons, List.cons_append, List.length_cons, List.length_append]
    omega

end Spaced

/-! ## What is read is there -/

/-- With some fuel, what the readers take from a text are the tokens of what they give. -/
structure SoundAt (fuel : Nat) : Prop where
  value : ∀ {cs rest : List Char} {j : Json} {ts : List Token},
    readValue fuel cs = some (j, rest) → Spaced ts rest → Spaced (j.tokens ++ ts) cs
  items : ∀ {cs rest : List Char} {js : List Json} {ts : List Token},
    readItems fuel cs = some (js, rest) → Spaced ts rest →
    js ≠ [] ∧ Spaced (itemTokens js ++ ts) cs
  members : ∀ {cs rest : List Char} {ms : List (Text × Json)} {ts : List Token},
    readMembers fuel cs = some (ms, rest) → Spaced ts rest →
    ms ≠ [] ∧ Spaced (memberTokens ms ++ ts) cs

namespace SoundAt

variable {fuel : Nat} {cs rest : List Char} {ts : List Token}

theorem succ_value (h : SoundAt fuel) {j : Json}
    (hread : readValue (fuel + 1) cs = some (j, rest)) (hafter : Spaced ts rest) :
    Spaced (j.tokens ++ ts) cs := by
  cases cs with
  | nil => cases hread
  | cons c cs =>
    by_cases hbracket : c = '['
    · subst hbracket
      simp only [readValue, Char.reduceEq, if_false, if_true] at hread
      split at hread
      next rest' hclose =>
        cases hread
        exact .cons_mark .openArray (.of_mark (m := .closeArray) hclose hafter)
      next =>
        simp only [Option.map_eq_some_iff, Prod.mk.injEq, Prod.exists] at hread
        obtain ⟨js, rest, hitems, rfl, rfl⟩ := hread
        exact .cons_mark .openArray (.of_skipBlanks (h.items hitems hafter).2)
    · by_cases hbrace : c = '{'
      · subst hbrace
        simp only [readValue, Char.reduceEq, if_false, if_true] at hread
        split at hread
        next rest' hclose =>
          cases hread
          exact .cons_mark .openObject (.of_mark (m := .closeObject) hclose hafter)
        next =>
          simp only [Option.map_eq_some_iff, Prod.mk.injEq, Prod.exists] at hread
          obtain ⟨ms, rest, hmembers, rfl, rfl⟩ := hread
          exact .cons_mark .openObject (.of_skipBlanks (h.members hmembers hafter).2)
      · obtain ⟨l, s, hspells, rfl, hsplit, hends⟩ := readValue_leaf hread hbracket hbrace
        rw [l.tokens_json, hsplit]
        exact .token (.leaf hspells) hends hafter

theorem succ_items (h : SoundAt fuel) {js : List Json}
    (hread : readItems (fuel + 1) cs = some (js, rest)) (hafter : Spaced ts rest) :
    js ≠ [] ∧ Spaced (itemTokens js ++ ts) cs := by
  simp only [readItems, Option.bind_eq_bind, Option.bind_eq_some_iff, Prod.exists] at hread
  obtain ⟨j, rest', hvalue, hread⟩ := hread
  split at hread
  next rest'' hcomma =>
    simp only [Option.bind_eq_some_iff, Option.pure_def, Option.some.injEq, Prod.mk.injEq,
      Prod.exists] at hread
    obtain ⟨js, rest, hread, rfl, rfl⟩ := hread
    obtain ⟨hsome, hothers⟩ := h.items hread hafter
    obtain ⟨next, js, rfl⟩ := List.exists_cons_of_ne_nil hsome
    refine ⟨List.cons_ne_nil _ _, ?_⟩
    rw [itemTokens_cons_cons, List.append_assoc]
    exact h.value hvalue (.of_mark hcomma (.of_skipBlanks hothers))
  next rest'' hbracket =>
    cases hread
    refine ⟨List.cons_ne_nil _ _, ?_⟩
    rw [itemTokens, List.append_assoc]
    exact h.value hvalue (.of_mark hbracket hafter)
  next => cases hread

/-- A member is read with its key, its colon and its value. -/
theorem member (h : SoundAt fuel) {cs' : List Char} {key : Text} {j : Json}
    (hstring : stringBody cs = some (key, cs')) {cs'' : List Char}
    (hcolon : skipBlanks cs' = ':' :: cs'')
    (hread : readValue fuel (skipBlanks cs'') = some (j, rest)) (hafter : Spaced ts rest) :
    Spaced (.leaf (.string key) :: .mark .colon :: (j.tokens ++ ts)) ('"' :: cs) := by
  obtain ⟨body, rfl, hcontents⟩ := stringBody_sound hstring
  have hvalue : Spaced (.mark .colon :: (j.tokens ++ ts)) cs' :=
    .of_mark hcolon (.of_skipBlanks (h.value hread hafter))
  have hspelled : ('"' :: (body ++ ['"'])) ++ cs' = '"' :: (body ++ '"' :: cs') := by simp
  rw [← hspelled]
  exact .token (.leaf (.string hcontents)) Bool.noConfusion hvalue

theorem succ_members (h : SoundAt fuel) {ms : List (Text × Json)}
    (hread : readMembers (fuel + 1) cs = some (ms, rest)) (hafter : Spaced ts rest) :
    ms ≠ [] ∧ Spaced (memberTokens ms ++ ts) cs := by
  unfold readMembers at hread
  split at hread
  next fuel' cs hsame =>
    cases hsame
    simp only [Option.bind_eq_bind, Option.bind_eq_some_iff, Prod.exists] at hread
    obtain ⟨key, cs', hstring, hread⟩ := hread
    split at hread
    next cs'' hcolon =>
      simp only [Option.bind_eq_some_iff, Prod.exists] at hread
      obtain ⟨j, rest', hvalue, hread⟩ := hread
      split at hread
      next rest'' hcomma =>
        simp only [Option.bind_eq_some_iff, Option.pure_def, Option.some.injEq, Prod.mk.injEq,
          Prod.exists] at hread
        obtain ⟨ms, rest, hread, rfl, rfl⟩ := hread
        obtain ⟨hsome, hothers⟩ := h.members hread hafter
        obtain ⟨next, ms, rfl⟩ := List.exists_cons_of_ne_nil hsome
        refine ⟨List.cons_ne_nil _ _, ?_⟩
        have hbehind := h.member hstring hcolon hvalue
          (.of_mark (m := .comma) hcomma (.of_skipBlanks hothers))
        simpa [memberTokens_cons_cons] using hbehind
      next rest'' hbrace =>
        cases hread
        refine ⟨List.cons_ne_nil _ _, ?_⟩
        have hbehind := h.member hstring hcolon hvalue (.of_mark (m := .closeObject) hbrace hafter)
        simpa [memberTokens] using hbehind
      next => cases hread
    next => cases hread
  next => cases hread

end SoundAt

/-- **What is read is there**, whatever the fuel. -/
theorem spaced_of_read (fuel : Nat) : SoundAt fuel := by
  induction fuel with
  | zero =>
    refine ⟨nofun, nofun, fun {cs} _ _ _ hread => ?_⟩
    cases cs <;> cases hread
  | succ fuel ih => exact ⟨ih.succ_value, ih.succ_items, ih.succ_members⟩

/-! ## What is there is read -/

/-- With some fuel, the readers take from a text the document whose tokens it begins with, if these
are not too many, and leave a text that begins with the tokens after them. -/
structure CompleteAt (fuel : Nat) : Prop where
  value : ∀ {cs : List Char} {j : Json} {ts : List Token}, j.tokens.length ≤ fuel →
    Spaced (j.tokens ++ ts) cs →
    ∃ rest, readValue fuel (skipBlanks cs) = some (j, rest) ∧ Spaced ts rest
  items : ∀ {cs : List Char} {j : Json} {js : List Json} {ts : List Token},
    (itemTokens (j :: js)).length ≤ fuel → Spaced (itemTokens (j :: js) ++ ts) cs →
    ∃ rest, readItems fuel (skipBlanks cs) = some (j :: js, rest) ∧ Spaced ts rest
  members : ∀ {cs : List Char} {m : Text × Json} {ms : List (Text × Json)} {ts : List Token},
    (memberTokens (m :: ms)).length ≤ fuel → Spaced (memberTokens (m :: ms) ++ ts) cs →
    ∃ rest, readMembers fuel (skipBlanks cs) = some (m :: ms, rest) ∧ Spaced ts rest

theorem length_tokens_pos (j : Json) : 0 < j.tokens.length := by
  obtain ⟨t, ts, hfirst, -⟩ := j.exists_tokens
  rw [hfirst]
  exact Nat.succ_pos _

namespace CompleteAt

variable {fuel : Nat} {cs : List Char} {ts : List Token}

theorem leaf {l : Leaf} (hspaced : Spaced (.leaf l :: ts) cs) :
    ∃ rest, readValue (fuel + 1) (skipBlanks cs) = some (l.json, rest) ∧ Spaced ts rest := by
  obtain ⟨s, rest, hspells, hsplit, hends, hafter⟩ := hspaced.skipBlanks_cons
  cases hspells with
  | leaf hspells =>
    refine ⟨rest, ?_, hafter⟩
    rw [hsplit]
    exact hspells.readValue (fun hnumber => hafter.endsNumber (hends hnumber)) fuel

/-- What begins with an item does not begin with the bracket that closes an array. -/
theorem item_not_closed {j : Json} {js : List Json}
    (hspaced : Spaced (itemTokens (j :: js) ++ ts) cs) (rest : List Char) :
    skipBlanks cs ≠ ']' :: rest := by
  obtain ⟨behind, hfirst⟩ : ∃ behind, itemTokens (j :: js) ++ ts = j.tokens ++ behind := by
    cases js with
    | nil => exact ⟨_, by rw [itemTokens, List.append_assoc]⟩
    | cons => exact ⟨_, by rw [itemTokens_cons_cons, List.append_assoc]⟩
  obtain ⟨t, others, hstart, hkind⟩ := j.exists_tokens
  rw [hfirst, hstart, List.cons_append] at hspaced
  obtain ⟨s, cs', hspells, hsplit, -, -⟩ := hspaced.skipBlanks_cons
  intro hclosed
  rw [hclosed] at hsplit
  rcases hkind with ⟨l, rfl⟩ | rfl | rfl
  · cases hspells with
    | leaf hspells =>
      obtain ⟨c, s, rfl, hknown⟩ := hspells.head
      exact hknown.ne rfl (by decide) (List.cons.inj hsplit).1.symm
  · cases hspells
    cases hsplit
  · cases hspells
    cases hsplit

/-- A member begins with the quote of its key. -/
theorem member_quote {m : Text × Json} {ms : List (Text × Json)}
    (hspaced : Spaced (memberTokens (m :: ms) ++ ts) cs) : ∃ body rest, Contents m.1 body ∧
      skipBlanks cs = '"' :: (body ++ '"' :: rest) ∧
      Spaced ((memberTokens (m :: ms)).tail ++ ts) rest := by
  obtain ⟨key, j⟩ := m
  obtain ⟨others, hfirst⟩ : ∃ others, memberTokens ((key, j) :: ms) =
      .leaf (.string key) :: others := by
    cases ms with
    | nil => exact ⟨_, rfl⟩
    | cons => exact ⟨_, memberTokens_cons_cons key j _ _⟩
  rw [hfirst] at hspaced ⊢
  obtain ⟨s, rest, hspells, hsplit, -, hafter⟩ := hspaced.skipBlanks_cons
  cases hspells with
  | leaf hspells =>
    cases hspells with
    | @string _ body hcontents =>
      exact ⟨body, rest, hcontents, by rw [hsplit]; simp, hafter⟩

theorem succ_value (h : CompleteAt fuel) {j : Json} (henough : j.tokens.length ≤ fuel + 1)
    (hspaced : Spaced (j.tokens ++ ts) cs) :
    ∃ rest, readValue (fuel + 1) (skipBlanks cs) = some (j, rest) ∧ Spaced ts rest := by
  cases j with
  | null => exact leaf (l := .null) hspaced
  | bool b => exact leaf (l := .bool b) hspaced
  | integer negative n => exact leaf (l := .integer negative n) hspaced
  | fractional => exact leaf (l := .fractional) hspaced
  | string t => exact leaf (l := .string t) hspaced
  | array items =>
    obtain ⟨cs, hsplit, hinside⟩ := hspaced.mark
    rw [tokens, List.length_cons] at henough
    rw [hsplit]
    simp only [Mark.char, readValue, Char.reduceEq, if_false, if_true]
    cases items with
    | nil =>
      obtain ⟨rest, hclosed, hafter⟩ := hinside.mark
      rw [hclosed]
      exact ⟨rest, rfl, hafter⟩
    | cons j js =>
      obtain ⟨rest, hread, hafter⟩ := h.items (Nat.le_of_succ_le_succ henough) hinside
      refine ⟨rest, ?_, hafter⟩
      split
      next hclosed => exact absurd hclosed (item_not_closed hinside _)
      next =>
        rw [hread]
        rfl
  | object members =>
    obtain ⟨cs, hsplit, hinside⟩ := hspaced.mark
    rw [tokens, List.length_cons] at henough
    rw [hsplit]
    simp only [Mark.char, readValue, Char.reduceEq, if_false, if_true]
    cases members with
    | nil =>
      obtain ⟨rest, hclosed, hafter⟩ := hinside.mark
      rw [hclosed]
      exact ⟨rest, rfl, hafter⟩
    | cons m ms =>
      obtain ⟨rest, hread, hafter⟩ := h.members (Nat.le_of_succ_le_succ henough) hinside
      refine ⟨rest, ?_, hafter⟩
      split
      next hclosed =>
        obtain ⟨body, rest, -, hquote, -⟩ := member_quote hinside
        rw [hquote] at hclosed
        cases hclosed
      next =>
        rw [hread]
        rfl

theorem succ_items (h : CompleteAt fuel) {j : Json} {js : List Json}
    (henough : (itemTokens (j :: js)).length ≤ fuel + 1)
    (hspaced : Spaced (itemTokens (j :: js) ++ ts) cs) :
    ∃ rest, readItems (fuel + 1) (skipBlanks cs) = some (j :: js, rest) ∧ Spaced ts rest := by
  cases js with
  | nil =>
    rw [itemTokens, List.length_append, List.length_singleton] at henough
    rw [itemTokens, List.append_assoc] at hspaced
    obtain ⟨cs₁, hvalue, hspaced⟩ := h.value (by omega) hspaced
    obtain ⟨rest, hbracket, hafter⟩ := hspaced.mark
    refine ⟨rest, ?_, hafter⟩
    rw [readItems, hvalue]
    simp [hbracket, Mark.char]
  | cons next js =>
    rw [itemTokens_cons_cons, List.length_append, List.length_cons] at henough
    rw [itemTokens_cons_cons, List.append_assoc] at hspaced
    obtain ⟨cs₁, hvalue, hspaced⟩ := h.value (by omega) hspaced
    obtain ⟨cs₂, hcomma, hspaced⟩ := hspaced.mark
    obtain ⟨rest, hothers, hafter⟩ := h.items (by omega) hspaced
    refine ⟨rest, ?_, hafter⟩
    rw [readItems, hvalue]
    simp [hcomma, Mark.char, hothers]

theorem succ_members (h : CompleteAt fuel) {m : Text × Json} {ms : List (Text × Json)}
    (henough : (memberTokens (m :: ms)).length ≤ fuel + 1)
    (hspaced : Spaced (memberTokens (m :: ms) ++ ts) cs) :
    ∃ rest, readMembers (fuel + 1) (skipBlanks cs) = some (m :: ms, rest) ∧ Spaced ts rest := by
  obtain ⟨body, cs₁, hcontents, hquote, hspaced⟩ := member_quote hspaced
  obtain ⟨key, j⟩ := m
  cases ms with
  | nil =>
    simp only [memberTokens, List.length_cons, List.length_append, List.length_nil] at henough
    rw [memberTokens, List.tail_cons, List.cons_append, List.append_assoc] at hspaced
    obtain ⟨cs₂, hcolon, hspaced⟩ := hspaced.mark
    obtain ⟨cs₃, hvalue, hspaced⟩ := h.value (by omega) hspaced
    obtain ⟨rest, hbrace, hafter⟩ := hspaced.mark
    refine ⟨rest, ?_, hafter⟩
    rw [hquote, readMembers, hcontents.read]
    simp [hcolon, hvalue, hbrace, Mark.char]
  | cons next ms =>
    simp only [memberTokens_cons_cons, List.length_cons, List.length_append] at henough
    rw [memberTokens_cons_cons, List.tail_cons, List.cons_append, List.append_assoc] at hspaced
    obtain ⟨cs₂, hcolon, hspaced⟩ := hspaced.mark
    obtain ⟨cs₃, hvalue, hspaced⟩ := h.value (by omega) hspaced
    obtain ⟨cs₄, hcomma, hspaced⟩ := hspaced.mark
    obtain ⟨rest, hothers, hafter⟩ := h.members (by omega) hspaced
    refine ⟨rest, ?_, hafter⟩
    rw [hquote, readMembers, hcontents.read]
    simp [hcolon, hvalue, hcomma, Mark.char, hothers]

end CompleteAt

/-- **What is there is read**, with as much fuel as there are tokens. -/
theorem read_of_spaced (fuel : Nat) : CompleteAt fuel := by
  induction fuel with
  | zero =>
    refine ⟨fun {_ j _} henough => ?_, fun {_ j js _} henough => ?_, fun {_ m ms _} henough => ?_⟩
    · exact absurd j.length_tokens_pos (Nat.not_lt.mpr henough)
    · cases js <;> simp [itemTokens] at henough
    · cases ms <;> simp [memberTokens] at henough
  | succ fuel ih => exact ⟨ih.succ_value, ih.succ_items, ih.succ_members⟩

/-! ## Whole texts -/

/-- **A text holds a document** exactly if it spaces the tokens of the document. -/
theorem parse?_eq_some_iff {cs : List Char} {j : Json} :
    parse? cs = some j ↔ Spaced j.tokens cs := by
  simp only [parse?, Option.bind_eq_bind, Option.bind_eq_some_iff, Option.ite_none_right_eq_some,
    Prod.exists, List.isEmpty_iff, Option.some.injEq]
  constructor
  · rintro ⟨j', rest, hread, hdone, rfl⟩
    have hafter : Spaced [] rest := .of_skipBlanks (hdone ▸ .nil)
    have hspaced := (spaced_of_read _).value hread hafter
    rw [List.append_nil] at hspaced
    exact .of_skipBlanks hspaced
  · intro hspaced
    have henough : j.tokens.length ≤ cs.length + 1 := Nat.le_succ_of_le hspaced.length_le
    rw [← List.append_nil j.tokens] at hspaced
    obtain ⟨rest, hread, hafter⟩ := (read_of_spaced _).value henough hspaced
    exact ⟨j, rest, hread, hafter.skipBlanks_nil, rfl⟩

/-! ## One row of tokens -/

theorem Leaf.json_inj {l l' : Leaf} (h : l.json = l'.json) : l = l' := by
  cases l <;> cases l' <;> simp_all [json]

theorem Leaf.IsStart.ne_mark {c : Char} (h : Leaf.IsStart c) (m : Mark) : c ≠ m.char := by
  cases m <;> exact h.ne rfl (by decide)

/-- What two tokens at the front of one text are, and what is left of it. -/
theorem Token.Spells.unique {t t' : Token} {s s' rest rest' : List Char} (h : t.Spells s)
    (h' : t'.Spells s') (hsame : s ++ rest = s' ++ rest')
    (hends : t.isNumber = true → EndsNumber rest) (hends' : t'.isNumber = true → EndsNumber rest') :
    t = t' ∧ rest = rest' := by
  cases h with
  | mark m =>
    cases h' with
    | mark m' =>
      obtain ⟨hchar, rfl⟩ := List.cons.inj hsame
      exact ⟨congrArg _ (Mark.char_inj hchar), rfl⟩
    | leaf h' =>
      obtain ⟨c, cs, rfl, hstart⟩ := h'.head
      exact absurd (List.cons.inj hsame).1.symm (hstart.ne_mark m)
  | leaf h =>
    cases h' with
    | mark m =>
      obtain ⟨c, cs, rfl, hstart⟩ := h.head
      exact absurd (List.cons.inj hsame).1 (hstart.ne_mark m)
    | leaf h' =>
      have hread := h.readValue hends 0
      rw [hsame, h'.readValue hends' 0] at hread
      obtain ⟨hleaf, rfl⟩ := Prod.mk.inj (Option.some.inj hread)
      exact ⟨congrArg _ (Leaf.json_inj hleaf.symm), rfl⟩

/-- A text spaces one row of tokens. -/
theorem Spaced.unique {ts ts' : List Token} {cs : List Char} (h : Spaced ts cs)
    (h' : Spaced ts' cs) : ts = ts' := by
  induction ts generalizing ts' cs with
  | nil =>
    cases ts' with
    | nil => rfl
    | cons t' ts' =>
      obtain ⟨s, rest, hspells, hsplit, -⟩ := h'.skipBlanks_cons
      obtain ⟨c, s, rfl, -⟩ := hspells.head
      rw [h.skipBlanks_nil] at hsplit
      cases hsplit
  | cons t ts ih =>
    obtain ⟨s, rest, hspells, hsplit, hends, hafter⟩ := h.skipBlanks_cons
    cases ts' with
    | nil =>
      obtain ⟨c, s, rfl, -⟩ := hspells.head
      rw [h'.skipBlanks_nil] at hsplit
      cases hsplit
    | cons t' ts' =>
      obtain ⟨s', rest', hspells', hsplit', hends', hafter'⟩ := h'.skipBlanks_cons
      obtain ⟨rfl, rfl⟩ := hspells.unique hspells' (hsplit.symm.trans hsplit')
        (fun hnumber => hafter.endsNumber (hends hnumber))
        fun hnumber => hafter'.endsNumber (hends' hnumber)
      rw [ih hafter hafter']

/-- Two texts that space the same tokens hold the same document. -/
theorem parse?_congr {ts : List Token} {cs cs' : List Char} (h : Spaced ts cs)
    (h' : Spaced ts cs') : parse? cs = parse? cs' := by
  ext j
  rw [parse?_eq_some_iff, parse?_eq_some_iff]
  constructor
  · intro hspaced
    rwa [hspaced.unique h]
  · intro hspaced
    rwa [hspaced.unique h']

end Relay.Json
