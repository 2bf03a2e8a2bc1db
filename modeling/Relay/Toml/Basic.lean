/-!
# TOML tables

The values of a TOML document and the tables that its lines fill. A table remembers what made it,
for that decides which later lines may still add to it: a key is given once, an inline table is
complete as it stands, and a table with a header of its own takes no dotted keys from outside.
`Table.define?` puts in one `key = value` line, `Table.enter?` one header with the lines below it.

Both go through `Table.alter?`, which works on one key (`get?_alter?_self`) and leaves all others
alone (`get?_alter?_of_ne`).
-/

namespace Relay.Toml

/-- A bare or quoted key, without its quotes. -/
abbrev Key := List Char

/-- What made a table. -/
inductive Origin where
  /-- A header of its own, or the document itself. -/
  | header
  /-- The header of a table below it. -/
  | path
  /-- A dotted key. -/
  | dotted
  /-- Braces. -/
  | inline
  deriving DecidableEq, Repr

/-- Whether the table was only named on the way to something else. -/
def Origin.isImplicit : Origin → Bool
  | .path | .dotted => true
  | .header | .inline => false

/-- A value. Of a floating-point number it is kept whether it is too large to be finite, and of
dates and times only that they are such. -/
inductive Value where
  | string (s : List Char)
  | integer (i : Int)
  | float (overflows : Bool)
  | bool (b : Bool)
  | moment
  /-- An array in brackets. -/
  | array (items : List Value)
  /-- An array of tables, each with a header of its own. -/
  | tables (elements : List Value)
  | table (origin : Origin) (entries : List (Key × Value))
  deriving Repr

/-- The entries of a table, each key once. -/
abbrev Table := List (Key × Value)

/-- A line that gives a key a value, in the table that the dotted keys before it name. -/
structure Pair where
  path : List Key
  key : Key
  value : Value

/-- A line that opens a table, or the next element of an array of tables. -/
inductive Header where
  | table (path : List Key) (key : Key)
  | element (path : List Key) (key : Key)

/-- A header and the lines below it, up to the next header. -/
structure Section where
  header : Header
  pairs : List Pair

namespace Table

/-- The value of a key. -/
def get? (t : Table) (k : Key) : Option Value :=
  (t.find? fun e => e.1 = k).map Prod.snd

/-- The table after `change` has worked on what `k` stands for. -/
def alter? (k : Key) (change : Option Value → Option Value) : Table → Option Table
  | [] => (change none).map fun v => [(k, v)]
  | (k', v) :: rest =>
    if k' = k then (change (some v)).map fun v => (k, v) :: rest
    else (alter? k change rest).map ((k', v) :: ·)

theorem get?_alter?_self {k : Key} {change : Option Value → Option Value} {t t' : Table}
    (h : alter? k change t = some t') : get? t' k = change (get? t k) := by
  induction t generalizing t' with
  | nil =>
    obtain ⟨v, hv, rfl⟩ := Option.map_eq_some_iff.1 h
    simp [get?, hv]
  | cons entry rest ih =>
    obtain ⟨k', v⟩ := entry
    by_cases hk : k' = k
    · rw [alter?, if_pos hk] at h
      obtain ⟨w, hw, rfl⟩ := Option.map_eq_some_iff.1 h
      simp [get?, hk, hw]
    · rw [alter?, if_neg hk] at h
      obtain ⟨rest', hrest, rfl⟩ := Option.map_eq_some_iff.1 h
      simpa [get?, hk] using ih hrest

theorem get?_alter?_of_ne {k other : Key} {change : Option Value → Option Value} {t t' : Table}
    (h : alter? k change t = some t') (hne : other ≠ k) : get? t' other = get? t other := by
  induction t generalizing t' with
  | nil =>
    obtain ⟨v, _, rfl⟩ := Option.map_eq_some_iff.1 h
    simp [get?, hne.symm]
  | cons entry rest ih =>
    obtain ⟨k', v⟩ := entry
    by_cases hk : k' = k
    · rw [alter?, if_pos hk] at h
      obtain ⟨w, _, rfl⟩ := Option.map_eq_some_iff.1 h
      simp [get?, hk, hne.symm]
    · rw [alter?, if_neg hk] at h
      obtain ⟨rest', hrest, rfl⟩ := Option.map_eq_some_iff.1 h
      by_cases ho : k' = other
      · simp [get?, ho]
      · simpa [get?, ho] using ih hrest

/-- The table after `change` has worked on the table at the end of a path. Tables that were not
there before are made as `made` says. No path leads into braces, and dotted keys do not lead into
a table that has a header. -/
def update? (made : Origin) (change : Origin → Table → Option Table) :
    List Key → Origin → Table → Option Table
  | [], origin, t => change origin t
  | k :: path, _, t =>
    alter? k (fun
      | none => (update? made change path made []).map (.table made)
      | some (.table origin t) =>
        if origin = .inline || (made = .dotted && !origin.isImplicit) then none
        else (update? made change path origin t).map (.table origin)
      | some (.tables elements) =>
        match elements.getLast? with
        | some (.table origin t) =>
          (update? made change path origin t).map fun t =>
            .tables (elements.dropLast ++ [.table origin t])
        | _ => none
      | some _ => none) t

/-- Puts in a line of a table of the given origin. The key must be new, and the table that the
dotted keys name must not be one that a header has named. -/
def define? (origin : Origin) (t : Table) (p : Pair) : Option Table :=
  update? .dotted (fun origin t =>
    if (origin == .dotted) == p.path.isEmpty then none
    else alter? p.key (fun
      | none => some p.value
      | some _ => none) t) p.path origin t

/-- Puts in the lines of a table of the given origin, one after the other. -/
def defineAll? (origin : Origin) (t : Table) (ps : List Pair) : Option Table :=
  ps.foldlM (define? origin) t

/-- Puts in a header with the lines below it. A table gets a header once. -/
def enter? (t : Table) (s : Section) : Option Table :=
  match s.header with
  | .table path key =>
    update? .path (fun _ t => alter? key (fun
      | none => (defineAll? .header [] s.pairs).map (.table .header)
      | some (.table .path t) => (defineAll? .header t s.pairs).map (.table .header)
      | some _ => none) t) path .header t
  | .element path key =>
    update? .path (fun _ t => alter? key (fun
      | none => (defineAll? .header [] s.pairs).map fun t => .tables [.table .header t]
      | some (.tables elements) =>
        (defineAll? .header [] s.pairs).map fun t => .tables (elements ++ [.table .header t])
      | some _ => none) t) path .header t

/-- The table of a document from the lines before the first header and the sections after it. -/
def ofSections? (ps : List Pair) (ss : List Section) : Option Table := do
  ss.foldlM enter? (← defineAll? .header [] ps)

end Table

end Relay.Toml
