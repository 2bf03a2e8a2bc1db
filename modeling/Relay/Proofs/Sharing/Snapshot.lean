import Mathlib.Algebra.BigOperators.Group.Finset.Basic
import Mathlib.Data.Fintype.Basic
import Relay.Proofs.Ledger
import Relay.Record

/-!
# Snapshots while others use the ledger

Any number of actors acquire and release channels and threads on one ledger, each in its own order
(`Errand.Orderly`), and somebody takes a snapshot meanwhile, one counter after the other. The turns
come in any order (`Commons.play`).

* `Commons.Sound.step`: the ledger counts what the actors have acquired and released;
* `Commons.read_bounds`: what was read of a counter lies between its values before and after;
* `Commons.snapshot_consistent`: a snapshot misses nothing that is live, and if it shows nothing
  that is, then nothing was for as long as it took to read it;
* `Commons.Numbered.step`: no two channels have the same number.
-/

namespace Relay

/-- What a ledger counts. -/
inductive Resource where
  | channel
  | thread
  deriving DecidableEq, Repr

instance : Fintype Resource := ⟨{.channel, .thread}, fun r => by cases r <;> decide⟩

/-- The counter of what was acquired. -/
def Resource.acquired : Resource → Counter
  | .channel => .channelsCreated
  | .thread => .threadsSpawned

/-- The counter of what was released. -/
def Resource.released : Resource → Counter
  | .channel => .channelsDisposed
  | .thread => .threadsJoined

/-- What is live of a resource, as a ledger tells it. -/
def Ledger.live (l : Ledger) : Resource → Nat
  | .channel => l.liveChannels
  | .thread => l.liveThreads

theorem Ledger.live_eq (l : Ledger) (r : Resource) :
    l.live r = l.read r.acquired - l.read r.released := by
  cases r <;> rfl

/-- What an actor does on a ledger. Its channels and its threads are counted from zero, in the order
in which it acquires them. -/
inductive Errand where
  | create (capacity : Capacity)
  | dispose (own : Nat)
  | spawn
  | join (own : Nat)
  deriving DecidableEq

namespace Errand

/-- The counter that an errand moves. -/
def counter : Errand → Counter
  | .create _ => .channelsCreated
  | .dispose _ => .channelsDisposed
  | .spawn => .threadsSpawned
  | .join _ => .threadsJoined

/-- Which of its own resources of a kind an actor releases by an errand. -/
def releases? (r : Resource) : Errand → Option Nat
  | .dispose own => if r = .channel then some own else none
  | .join own => if r = .thread then some own else none
  | _ => none

/-- How many resources of a kind were acquired by some errands. -/
def acquired (r : Resource) (past : List Errand) : Nat :=
  past.countP fun e => e.counter = r.acquired

/-- Which resources of a kind were released by some errands. -/
def released (r : Resource) (past : List Errand) : List Nat :=
  past.filterMap (releases? r)

/-- The resources of a kind that were acquired and not released. -/
def held (r : Resource) (past : List Errand) : List Nat :=
  (List.range (acquired r past)).filter (· ∉ released r past)

/-- Whether an errand may follow others of the same actor: what it releases was acquired by one of
them and released by none. -/
def Follows (past : List Errand) (e : Errand) : Prop :=
  ∀ r, ∀ own ∈ e.releases? r, own < acquired r past ∧ own ∉ released r past

instance (past : List Errand) (e : Errand) : Decidable (e.Follows past) :=
  inferInstanceAs (Decidable (∀ r, ∀ own ∈ e.releases? r, _ ∧ _))

/-- Whether each of some errands may follow those before it. -/
def OrderlyAfter (past : List Errand) : List Errand → Prop
  | [] => True
  | e :: rest => e.Follows past ∧ OrderlyAfter (past ++ [e]) rest

instance OrderlyAfter.decidable :
    (past errands : List Errand) → Decidable (OrderlyAfter past errands)
  | _, [] => .isTrue trivial
  | past, e :: rest =>
    have := OrderlyAfter.decidable (past ++ [e]) rest
    inferInstanceAs (Decidable (e.Follows past ∧ OrderlyAfter (past ++ [e]) rest))

/-- Whether everything that is released was acquired before, and is released once. -/
def Orderly (errands : List Errand) : Prop := OrderlyAfter [] errands

instance (errands : List Errand) : Decidable (Orderly errands) :=
  OrderlyAfter.decidable [] errands

/-- Whether some errands released each of their own resources at most once, and no others. -/
structure Tidy (r : Resource) (past : List Errand) : Prop where
  once : (released r past).Nodup
  own : ∀ own ∈ released r past, own < acquired r past

variable {r : Resource} {past : List Errand} {e : Errand}

theorem acquired_concat (r : Resource) (past : List Errand) (e : Errand) :
    acquired r (past ++ [e]) = acquired r past + if r.acquired = e.counter then 1 else 0 := by
  simp only [acquired, List.countP_append, List.countP_singleton, decide_eq_true_eq,
    @eq_comm Counter r.acquired]

theorem released_concat (r : Resource) (past : List Errand) (e : Errand) :
    released r (past ++ [e]) = released r past ++ (e.releases? r).toList := by
  rw [released, List.filterMap_append, released]
  cases h : e.releases? r <;> simp [List.filterMap, h]

theorem length_released_concat (r : Resource) (past : List Errand) (e : Errand) :
    (released r (past ++ [e])).length =
      (released r past).length + if r.released = e.counter then 1 else 0 := by
  rw [released_concat, List.length_append]
  cases e <;> cases r <;> rfl

theorem Tidy.concat (h : Tidy r past) (hf : e.Follows past) : Tidy r (past ++ [e]) := by
  have hgrows : acquired r past ≤ acquired r (past ++ [e]) := by
    rw [acquired_concat]
    omega
  have hown : ∀ own ∈ (e.releases? r).toList, own < acquired r past ∧ own ∉ released r past :=
    fun own hm => hf r own (Option.mem_toList.mp hm)
  constructor
  · rw [released_concat, List.nodup_append']
    exact ⟨h.once, by cases e.releases? r <;> simp, fun own hm hm' => (hown own hm').2 hm⟩
  · rw [released_concat]
    intro own hm
    rcases List.mem_append.mp hm with hm | hm
    · exact Nat.lt_of_lt_of_le (h.own own hm) hgrows
    · exact Nat.lt_of_lt_of_le (hown own hm).1 hgrows

/-- What was acquired is held or was released. -/
theorem Tidy.length_held (h : Tidy r past) :
    (held r past).length + (released r past).length = acquired r past := by
  have hsplit := (List.range (acquired r past)).length_eq_length_filter_add (· ∉ released r past)
  have hreleased : ((List.range (acquired r past)).filter fun own =>
      !decide (own ∉ released r past)).Perm (released r past) := by
    refine (List.perm_ext_iff_of_nodup (List.nodup_range.filter _) h.once).mpr fun own => ?_
    simp only [List.mem_filter, List.mem_range, decide_not, Bool.not_not, decide_eq_true_eq]
    exact ⟨And.right, fun hm => ⟨h.own own hm, hm⟩⟩
  rw [List.length_range, hreleased.length_eq] at hsplit
  exact hsplit.symm

end Errand

/-- A user of a ledger. -/
structure Actor where
  /-- What it has done, oldest first. -/
  done : List Errand := []
  todo : List Errand
  /-- The records of the channels that it created, oldest first. -/
  records : List Record := []

/-- The numbers of the channels that an actor created. -/
def Actor.ids (a : Actor) : List Nat := a.records.map Record.id

/-- The actor after its next errand. -/
def Actor.perform (a : Actor) (e : Errand) (rest : List Errand) (l : Ledger) : Actor :=
  { done := a.done ++ [e]
    todo := rest
    records := match e with
      | .create capacity => a.records ++ [(Record.create capacity l).1]
      | _ => a.records }

/-- Whether an actor has done nothing out of order, and is about to do nothing out of order. -/
structure Actor.Orderly (a : Actor) : Prop where
  tidy : ∀ r, Errand.Tidy r a.done
  ahead : Errand.OrderlyAfter a.done a.todo

theorem Actor.Orderly.perform {a : Actor} {e : Errand} {rest : List Errand} (h : a.Orderly)
    (htodo : a.todo = e :: rest) (l : Ledger) : (a.perform e rest l).Orderly := by
  have hahead := h.ahead
  rw [htodo] at hahead
  exact ⟨fun r => (h.tidy r).concat hahead.1, hahead.2⟩

/-- The number of a channel is one more than the count of those before it. -/
theorem Actor.ids_perform (a : Actor) (e : Errand) (rest : List Errand) (l : Ledger) :
    (a.perform e rest l).ids = a.ids ++
      if .channelsCreated = e.counter then [l.channelsCreated + 1] else [] := by
  cases e <;> simp [perform, ids, Errand.counter, Record.create]

/-- A ledger, those who use it, and a snapshot of it in the making. -/
structure Commons (ι : Type) where
  ledger : Ledger := .empty
  actors : ι → Actor
  reading : Reading := {}

/-- Whose turn it is. -/
inductive Turn (ι : Type) where
  /-- An actor does its next errand. -/
  | act (i : ι)
  /-- The next counter is read for the snapshot. -/
  | load
  deriving DecidableEq

namespace Commons

variable {ι : Type} [DecidableEq ι] {o : Commons ι} {turns : List (Turn ι)} {k : Counter}

/-- A new ledger, on which nothing was done yet. -/
def start (errands : ι → List Errand) : Commons ι :=
  { actors := fun i => { todo := errands i } }

/-- What a turn leaves. Nothing happens if there is nothing left to do. -/
def step (o : Commons ι) : Turn ι → Commons ι
  | .act i =>
    match (o.actors i).todo with
    | [] => o
    | e :: rest =>
      { o with
        ledger := o.ledger.bump e.counter
        actors := Function.update o.actors i ((o.actors i).perform e rest o.ledger) }
  | .load => { o with reading := o.reading.advance o.ledger }

/-- What some turns leave. -/
def play (o : Commons ι) (turns : List (Turn ι)) : Commons ι := turns.foldl step o

/-- Without the turns of others, the loads make a snapshot. -/
theorem seen_loads (h : o.reading = {}) :
    (o.play (List.replicate 4 .load)).reading.seen = o.ledger.snapshot := by
  obtain ⟨ledger, actors, reading⟩ := o
  subst h
  rfl

theorem play_append (o : Commons ι) (before after : List (Turn ι)) :
    o.play (before ++ after) = (o.play before).play after := List.foldl_append

/-! ## The ledger counts what was done -/

section Counting

variable [Fintype ι]

/-- A turn of an actor changes a sum over all actors by what it changes its own part. -/
theorem sum_update (actors : ι → Actor) (i : ι) (a : Actor) (f : Actor → Nat) {n : Nat}
    (hf : f a = f (actors i) + n) :
    ∑ j, f (Function.update actors i a j) = (∑ j, f (actors j)) + n := by
  rw [← Finset.add_sum_erase _ _ (Finset.mem_univ i),
    ← Finset.add_sum_erase Finset.univ (fun j => f (actors j)) (Finset.mem_univ i),
    Function.update_self, hf]
  have hothers : ∑ j ∈ Finset.univ.erase i, f (Function.update actors i a j) =
      ∑ j ∈ Finset.univ.erase i, f (actors j) :=
    Finset.sum_congr rfl fun j hj => by
      rw [Function.update_of_ne (Finset.ne_of_mem_erase hj)]
  rw [hothers]
  omega

/-- The ledger counts what the actors have done, who do nothing out of order. -/
structure Sound (o : Commons ι) : Prop where
  actors : ∀ i, (o.actors i).Orderly
  acquired : ∀ r, o.ledger.read r.acquired = ∑ i, Errand.acquired r (o.actors i).done
  released : ∀ r, o.ledger.read r.released = ∑ i, (Errand.released r (o.actors i).done).length

omit [DecidableEq ι] in
theorem Sound.start {errands : ι → List Errand} (h : ∀ i, Errand.Orderly (errands i)) :
    (start errands).Sound where
  actors i := ⟨fun _ => ⟨List.nodup_nil, nofun⟩, h i⟩
  acquired r := by cases r <;> exact Finset.sum_const_zero.symm
  released r := by cases r <;> exact Finset.sum_const_zero.symm

theorem Sound.step (h : o.Sound) (t : Turn ι) : (o.step t).Sound := by
  cases t with
  | load => exact ⟨h.actors, h.acquired, h.released⟩
  | act i =>
    rw [Commons.step]
    split
    · exact h
    · rename_i e rest htodo
      constructor
      · refine (Function.forall_update_iff _ fun _ a => Actor.Orderly a).mpr
          ⟨?_, fun j _ => h.actors j⟩
        exact (h.actors i).perform htodo o.ledger
      · intro r
        rw [Ledger.read_bump, h.acquired]
        exact (sum_update o.actors i _ (fun a => Errand.acquired r a.done)
          (Errand.acquired_concat r _ e)).symm
      · intro r
        rw [Ledger.read_bump, h.released]
        exact (sum_update o.actors i _ (fun a => (Errand.released r a.done).length)
          (Errand.length_released_concat r _ e)).symm

theorem Sound.play (h : o.Sound) (turns : List (Turn ι)) : (o.play turns).Sound := by
  induction turns generalizing o with
  | nil => exact h
  | cons t turns ih => exact ih (h.step t)

/-- How many resources of a kind the actors hold. -/
def live (o : Commons ι) (r : Resource) : Nat := ∑ i, (Errand.held r (o.actors i).done).length

omit [DecidableEq ι] in
theorem Sound.live_add (h : o.Sound) (r : Resource) :
    o.live r + o.ledger.read r.released = o.ledger.read r.acquired := by
  rw [h.acquired, h.released, live, ← Finset.sum_add_distrib]
  exact Finset.sum_congr rfl fun i _ => ((h.actors i).tidy r).length_held

end Counting

/-! ## What is read of a counter -/

theorem read_step_le (o : Commons ι) (t : Turn ι) (k : Counter) :
    o.ledger.read k ≤ (o.step t).ledger.read k := by
  cases t with
  | load => exact Nat.le_refl _
  | act i =>
    rw [step]
    split
    · exact Nat.le_refl _
    · rw [Ledger.read_bump]
      exact Nat.le_add_right ..

theorem read_play_le (o : Commons ι) (turns : List (Turn ι)) (k : Counter) :
    o.ledger.read k ≤ (o.play turns).ledger.read k := by
  induction turns generalizing o with
  | nil => exact Nat.le_refl _
  | cons t turns ih => exact (o.read_step_le t k).trans (ih _)

theorem reading_act (o : Commons ι) (i : ι) : (o.step (.act i)).reading = o.reading := by
  rw [step]
  split <;> rfl

/-- A load reads the first of the counters that are left to read. -/
theorem reading_load {c : Counter} {rest : List Counter} (h : o.reading.pending = c :: rest) :
    (o.step .load).reading = ⟨rest, o.reading.seen.write (o.ledger.read c) c⟩ := by
  rw [step, Reading.advance, h]

theorem step_load_of_done (h : o.reading.pending = []) : o.step .load = o := by
  rw [step, Reading.advance, h]

/-- The counters are read in order. -/
theorem suffix_step (o : Commons ι) (t : Turn ι) :
    (o.step t).reading.pending <:+ o.reading.pending := by
  cases t with
  | act i => rw [reading_act]
  | load =>
    cases hp : o.reading.pending with
    | nil => rw [step_load_of_done hp, hp]
    | cons c rest =>
      rw [reading_load hp]
      exact List.suffix_cons c rest

theorem suffix_play (o : Commons ι) (turns : List (Turn ι)) :
    (o.play turns).reading.pending <:+ o.reading.pending := by
  induction turns generalizing o with
  | nil => exact List.suffix_refl _
  | cons t turns ih => exact (ih _).trans (o.suffix_step t)

/-- What was read of a counter stays as it is. -/
theorem seen_step (h : k ∉ o.reading.pending) (t : Turn ι) :
    (o.step t).reading.seen.read k = o.reading.seen.read k := by
  cases t with
  | act i => rw [reading_act]
  | load =>
    cases hp : o.reading.pending with
    | nil => rw [step_load_of_done hp]
    | cons c rest =>
      rw [hp] at h
      rw [reading_load hp, Ledger.read_write_of_ne _ _ (List.ne_of_not_mem_cons h)]

theorem seen_play (h : k ∉ o.reading.pending) (turns : List (Turn ι)) :
    (o.play turns).reading.seen.read k = o.reading.seen.read k := by
  induction turns generalizing o with
  | nil => rfl
  | cons t turns ih =>
    have hk : k ∉ (o.step t).reading.pending := fun hm => h ((o.suffix_step t).subset hm)
    exact (ih hk).trans (seen_step h t)

/-- A counter is read by one turn. -/
theorem exists_load (h : k ∈ o.reading.pending) (hdone : k ∉ (o.play turns).reading.pending) :
    ∃ before rest after, turns = before ++ .load :: after ∧
      (o.play before).reading.pending = k :: rest ∧ k ∉ rest := by
  induction turns generalizing o with
  | nil => exact absurd h hdone
  | cons t turns ih =>
    by_cases hk : k ∈ (o.step t).reading.pending
    · obtain ⟨before, rest, after, rfl, hread⟩ := ih hk hdone
      exact ⟨t :: before, rest, after, rfl, hread⟩
    · cases t with
      | act i => exact absurd (o.reading_act i ▸ h) hk
      | load =>
        obtain ⟨c, rest, hp⟩ := List.exists_cons_of_ne_nil (List.ne_nil_of_mem h)
        rw [reading_load hp] at hk
        rw [hp] at h
        rcases List.mem_cons.mp h with rfl | hm
        · exact ⟨[], rest, turns, rfl, hp, hk⟩
        · exact absurd hm hk

/-- What is read of a counter is its value at that moment. -/
theorem seen_load {rest : List Counter} (h : o.reading.pending = k :: rest) (hk : k ∉ rest)
    (turns : List (Turn ι)) :
    (o.play (.load :: turns)).reading.seen.read k = o.ledger.read k := by
  have hread : k ∉ (o.step .load).reading.pending := by rwa [reading_load h]
  have hseen := seen_play hread turns
  rw [reading_load h, Ledger.read_write_self] at hseen
  exact hseen

/-- **What was read of a counter lies between its values before and after.** -/
theorem read_bounds (h : k ∈ o.reading.pending) (hdone : k ∉ (o.play turns).reading.pending) :
    o.ledger.read k ≤ (o.play turns).reading.seen.read k ∧
      (o.play turns).reading.seen.read k ≤ (o.play turns).ledger.read k := by
  obtain ⟨before, rest, after, rfl, hp, hk⟩ := exists_load h hdone
  have hlater := (o.play before).read_play_le (.load :: after) k
  rw [play_append, seen_load hp hk]
  exact ⟨o.read_play_le before k, hlater⟩

/-! ## Numbers of channels -/

/-- No two channels have the same number, and the numbers are those up to the count of channels. -/
structure Numbered (o : Commons ι) : Prop where
  mem_iff : ∀ id, (∃ i, id ∈ (o.actors i).ids) ↔ 1 ≤ id ∧ id ≤ o.ledger.channelsCreated
  nodup : ∀ i, (o.actors i).ids.Nodup
  disjoint : ∀ i j, i ≠ j → (o.actors i).ids.Disjoint (o.actors j).ids

omit [DecidableEq ι] in
theorem Numbered.start (errands : ι → List Errand) : (start errands).Numbered where
  mem_iff id := by
    constructor
    · rintro ⟨_, hm⟩
      cases hm
    · rintro ⟨hpos, hle⟩
      have hle : id ≤ 0 := hle
      omega
  nodup _ := List.nodup_nil
  disjoint _ _ _ := List.disjoint_nil_left _

omit [DecidableEq ι] in
/-- The next number was not given before. -/
theorem Numbered.fresh (h : o.Numbered) (i : ι) :
    o.ledger.channelsCreated + 1 ∉ (o.actors i).ids := fun hm => by
  have hle := ((h.mem_iff _).mp ⟨i, hm⟩).2
  omega

/-- An actor has the numbers that it had, and the next one if it creates a channel. -/
theorem mem_ids_update (o : Commons ι) (i j : ι) (e : Errand) (rest : List Errand) {id : Nat} :
    id ∈ (Function.update o.actors i ((o.actors i).perform e rest o.ledger) j).ids ↔
      id ∈ (o.actors j).ids ∨
        j = i ∧ .channelsCreated = e.counter ∧ id = o.ledger.channelsCreated + 1 := by
  by_cases hj : j = i
  · subst hj
    rw [Function.update_self, Actor.ids_perform, List.mem_append]
    split <;> simp_all
  · rw [Function.update_of_ne hj]
    simp only [hj, false_and, or_false]

theorem Numbered.step (h : o.Numbered) (t : Turn ι) : (o.step t).Numbered := by
  cases t with
  | load => exact ⟨h.mem_iff, h.nodup, h.disjoint⟩
  | act i =>
    rw [Commons.step]
    split
    · exact h
    · rename_i e rest _
      have hcount : (o.ledger.bump e.counter).channelsCreated = o.ledger.channelsCreated +
        if .channelsCreated = e.counter then 1 else 0 := o.ledger.read_bump _ .channelsCreated
      constructor
      · intro id
        simp only [mem_ids_update, hcount]
        constructor
        · rintro ⟨j, hold | ⟨-, hcreate, rfl⟩⟩
          · have hle := (h.mem_iff id).mp ⟨j, hold⟩
            omega
          · rw [if_pos hcreate]
            omega
        · rintro ⟨hpos, hle⟩
          by_cases hold : id ≤ o.ledger.channelsCreated
          · obtain ⟨j, hm⟩ := (h.mem_iff id).mpr ⟨hpos, hold⟩
            exact ⟨j, .inl hm⟩
          · split at hle
            · rename_i hcreate
              exact ⟨i, .inr ⟨rfl, hcreate, by omega⟩⟩
            · omega
      · refine (Function.forall_update_iff _ fun _ a => (Actor.ids a).Nodup).mpr
          ⟨?_, fun j _ => h.nodup j⟩
        rw [Actor.ids_perform]
        split
        · rw [← List.concat_eq_append]
          exact (h.nodup i).concat (h.fresh i)
        · rw [List.append_nil]
          exact h.nodup i
      · intro j k hne id hj hk
        rcases (o.mem_ids_update i j e rest).mp hj with hj | ⟨rfl, -, rfl⟩
        · rcases (o.mem_ids_update i k e rest).mp hk with hk | ⟨-, -, rfl⟩
          · exact h.disjoint j k hne hj hk
          · exact h.fresh j hj
        · rcases (o.mem_ids_update j k e rest).mp hk with hk | ⟨rfl, -⟩
          · exact h.fresh k hk
          · exact hne rfl

theorem Numbered.play (h : o.Numbered) (turns : List (Turn ι)) : (o.play turns).Numbered := by
  induction turns generalizing o with
  | nil => exact h
  | cons t turns ih => exact ih (h.step t)

/-! ## What a snapshot tells -/

section Telling

variable [Fintype ι] {r : Resource}

/-- What the snapshot that was taken during some turns tells of a resource. -/
structure Tells (o : Commons ι) (turns : List (Turn ι)) (r : Resource) : Prop where
  /-- It does not show more released than acquired. -/
  ordered : (o.play turns).reading.seen.read r.released ≤
    (o.play turns).reading.seen.read r.acquired
  /-- It misses nothing that was live when the releases were read. -/
  complete : ∀ before after, turns = before ++ .load :: after →
    (o.play before).reading.pending.head? = some r.released →
    (o.play before).live r ≤ (o.play turns).reading.seen.live r
  /-- If it shows nothing that is live, then nothing was, from when the releases were read until
  the acquisitions were. -/
  quiet : (o.play turns).reading.seen.live r = 0 → ∀ before after, turns = before ++ after →
    r.released ∉ (o.play before).reading.pending → r.acquired ∈ (o.play before).reading.pending →
    ∀ i, Errand.held r ((o.play before).actors i).done = []

/-- The counter of releases is read before that of acquisitions. -/
theorem acquired_mem_of_head? {pending : List Counter}
    (h : pending <:+ ({} : Reading).pending) (hhead : pending.head? = some r.released) :
    r.acquired ∈ pending := by
  have hall : ∀ p ∈ ({} : Reading).pending.tails, p.head? = some r.released → r.acquired ∈ p := by
    cases r <;> decide
  exact hall pending ((List.mem_tails _ _).mpr h) hhead

/-- **What is live when the releases are read is seen to be live.** -/
theorem Sound.live_add_seen_le (h : o.Sound)
    (hsuffix : o.reading.pending <:+ ({} : Reading).pending)
    (hhead : o.reading.pending.head? = some r.released)
    (hdone : (o.play (.load :: turns)).reading.pending = []) :
    o.live r + (o.play (.load :: turns)).reading.seen.read r.released ≤
      (o.play (.load :: turns)).reading.seen.read r.acquired := by
  obtain ⟨rest, hp⟩ := List.head?_eq_some_iff.mp hhead
  have hrest : r.released ∉ rest := by
    have hnodup : ({} : Reading).pending.Nodup := by decide
    have hnodup := hsuffix.sublist.nodup hnodup
    rw [hp] at hnodup
    exact (List.nodup_cons.mp hnodup).1
  have hreleased := seen_load hp hrest turns
  have hacquired := read_bounds (acquired_mem_of_head? hsuffix hhead) (by rw [hdone]; nofun)
  have hlive := h.live_add r
  omega

omit [DecidableEq ι] in
/-- Nobody holds anything of what was released as often as it was acquired. -/
theorem Sound.held_eq_nil (h : o.Sound) (hle : o.ledger.read r.acquired ≤ o.ledger.read r.released)
    (i : ι) : Errand.held r (o.actors i).done = [] := by
  have hlive : o.live r = 0 := by
    have hadd := h.live_add r
    omega
  have hall := (Finset.sum_eq_zero_iff.mp hlive) i (Finset.mem_univ i)
  exact List.length_eq_zero_iff.mp hall

theorem tells {errands : ι → List Errand} (h : ∀ i, Errand.Orderly (errands i))
    (hdone : ((start errands).play turns).reading.pending = []) (r : Resource) :
    (start errands).Tells turns r := by
  have hload : ∀ before after, turns = before ++ .load :: after →
      ((start errands).play before).reading.pending.head? = some r.released →
      ((start errands).play before).live r +
          ((start errands).play turns).reading.seen.read r.released ≤
        ((start errands).play turns).reading.seen.read r.acquired := by
    intro before after hturns hhead
    have hlater : (start errands).play turns =
        ((start errands).play before).play (.load :: after) := hturns ▸ play_append ..
    rw [hlater] at hdone ⊢
    exact ((Sound.start h).play before).live_add_seen_le (suffix_play _ before) hhead hdone
  constructor
  · have hread : r.released ∉ ((start errands).play turns).reading.pending := by
      rw [hdone]
      nofun
    obtain ⟨before, rest, after, hturns, hp, -⟩ := exists_load (Reading.mem_pending _) hread
    have hle := hload before after hturns (by rw [hp]; rfl)
    omega
  · intro before after hturns hhead
    have hle := hload before after hturns hhead
    rw [Ledger.live_eq]
    omega
  · intro hquiet before after hturns hreleased hacquired
    have hlater : (start errands).play turns =
        ((start errands).play before).play after := hturns ▸ play_append ..
    rw [hlater] at hdone hquiet
    have hread : r.acquired ∉ (((start errands).play before).play after).reading.pending := by
      rw [hdone]
      nofun
    have hbefore := read_bounds (Reading.mem_pending _) hreleased
    have hsame := seen_play hreleased after
    have hafter := read_bounds hacquired hread
    rw [Ledger.live_eq] at hquiet
    exact ((Sound.start h).play before).held_eq_nil (by omega)

end Telling

/-- **A snapshot is consistent, whoever uses the ledger while it is taken.** It does not show more
released than acquired, it misses nothing that is live, and if it shows nothing that is, then
nothing was between its two loads. Meanwhile the channels are numbered one by one. -/
theorem snapshot_consistent [Fintype ι] {errands : ι → List Errand}
    (h : ∀ i, Errand.Orderly (errands i)) (turns : List (Turn ι)) :
    (((start errands).play turns).reading.isDone = true →
        ∀ r, (start errands).Tells turns r) ∧ ((start errands).play turns).Numbered :=
  ⟨fun hdone => tells h (List.isEmpty_iff.mp hdone), (Numbered.start errands).play turns⟩

/-- Two users, one of which starts and joins a thread. -/
def specimen : Bool → List Errand
  | false => [.create .single, .spawn, .join 0, .dispose 0]
  | true => [.create .single]

/-- Turns in which the snapshot is torn: both of them do something while it is taken. -/
def tornTurns : List (Turn Bool) :=
  [.act false, .act false, .load, .act false, .load, .act true, .load, .act false, .load]

/-- The snapshot shows both channels and no thread, so no thread was live after the joins were read,
and both channels are numbered. -/
theorem snapshot_consistent_specimen :
    ((start specimen).play tornTurns).reading.seen =
        { channelsCreated := 2, threadsSpawned := 1, threadsJoined := 1 } ∧
      (∀ i, Errand.held .thread
        (((start specimen).play (tornTurns.take 6)).actors i).done = []) ∧
      ((start specimen).play (tornTurns.take 2)).live .channel ≤ 2 ∧
      ∃ i, 2 ∈ (((start specimen).play tornTurns).actors i).ids := by
  have horderly : ∀ i, Errand.Orderly (specimen i) := by decide
  have htells := snapshot_consistent horderly tornTurns
  have hseen : ((start specimen).play tornTurns).reading.seen =
      { channelsCreated := 2, threadsSpawned := 1, threadsJoined := 1 } := by decide
  have hthreads := htells.1 (by decide) .thread
  have hchannels := htells.1 (by decide) .channel
  refine ⟨hseen, ?_, ?_, (htells.2.mem_iff 2).mpr (by decide)⟩
  · exact hthreads.quiet (by decide) (tornTurns.take 6) (tornTurns.drop 6) rfl (by decide)
      (by decide)
  · exact (hchannels.complete (tornTurns.take 2) (tornTurns.drop 3) rfl rfl).trans (by decide)

end Commons

end Relay
