import Relay.Proofs.Sharing.Guest

/-!
# Two runs on one ledger

`Duo.Reaches` says what two runs on one ledger can come to by any schedule, in which the callers and
the threads of both move in any order, and one may move between any two reads of the other.

* `Reaches.ledger`: the ledger is what it was and what the two logs tell;
* `Reaches.progresses`: neither run blocks the other, and no schedule goes on forever;
* `Reaches.beside`: what a run comes to alone, it comes to if the other does not move.
-/

namespace Relay

variable {α ω α' ω' : Type}

/-- The other one of two runs. -/
def Side.other : Side → Side
  | .left => .right
  | .right => .left

namespace Duo

/-- What two runs can come to: the moves so far, with the run in which they were made, and the
state. -/
inductive Reaches (p : Plan α ω) (p' : Plan α' ω') (l₀ : Ledger) :
    List (Side × Move) → Duo α ω α' ω' → Prop where
  | start : Reaches p p' l₀ [] (.start p p' l₀)
  | step {schedule : List (Side × Move)} {d d' : Duo α ω α' ω'} (side : Side) (move : Move) :
    Reaches p p' l₀ schedule d → d.step side move = some d' →
    Reaches p p' l₀ (schedule ++ [(side, move)]) d'

/-- The same two runs, the right one first. -/
def swap (d : Duo α ω α' ω') : Duo α' ω' α ω :=
  { ledger := d.ledger, left := d.right, right := d.left }

/-- Lets the parties of a schedule move, if they can. -/
def play : List (Side × Move) → Duo α ω α' ω' → Option (Duo α ω α' ω')
  | [], d => some d
  | (side, move) :: rest, d => (d.step side move).bind (play rest)

variable {p : Plan α ω} {p' : Plan α' ω'} {l₀ : Ledger} {schedule : List (Side × Move)}
  {side : Side} {move : Move} {d d' : Duo α ω α' ω'}

/-! ## Either side -/

theorem step_cases (h : d.step side move = some d') :
    (side = .left ∧ Guest.Goes move d.ledger d.left d'.ledger d'.left ∧ d'.right = d.right) ∨
      side = .right ∧ Guest.Goes move d.ledger d.right d'.ledger d'.right ∧ d'.left = d.left := by
  cases side with
  | left =>
    obtain ⟨⟨l, g⟩, hstep, rfl⟩ := Option.map_eq_some_iff.mp h
    exact .inl ⟨rfl, .of_step hstep, rfl⟩
  | right =>
    obtain ⟨⟨l, g⟩, hstep, rfl⟩ := Option.map_eq_some_iff.mp h
    exact .inr ⟨rfl, .of_step hstep, rfl⟩

theorem step_swap (side : Side) (move : Move) (d : Duo α ω α' ω') :
    d.swap.step side.other move = (d.step side move).map swap := by
  cases side <;> simp only [step, Side.other, Option.map_map] <;> rfl

theorem isSome_step (side : Side) (move : Move) (d : Duo α ω α' ω') :
    (d.swap.step side.other move).isSome = (d.step side move).isSome := by
  rw [step_swap, Option.isSome_map]

/-- It does not matter which run comes first. -/
theorem Reaches.swap (h : Reaches p p' l₀ schedule d) :
    Reaches p' p l₀ (schedule.map fun t => (t.1.other, t.2)) d.swap := by
  induction h with
  | start => exact .start
  | @step schedule d d' side move _ hstep ih =>
    rw [List.map_append]
    refine ih.step side.other move ?_
    rw [step_swap, hstep]; rfl

/-! ## The ledger -/

/-- **The ledger is what it was and what the two logs tell**, whatever comes of the runs. -/
theorem Reaches.ledger (h : Reaches p p' l₀ schedule d) :
    d.ledger = l₀ + .ofLog d.left.run.custody.log + .ofLog d.right.run.custody.log := by
  induction h with
  | start => rfl
  | step side move _ hstep ih =>
    rcases step_cases hstep with ⟨-, hgoes, hsame⟩ | ⟨-, hgoes, hsame⟩
    · rw [hsame, Ledger.add_right_comm]
      exact hgoes.ledger (ih.trans (Ledger.add_right_comm ..))
    · rw [hsame]
      exact hgoes.ledger ih

/-- What holds of every run holds of both. -/
theorem Reaches.sound (h : Reaches p p' l₀ schedule d) :
    (∃ deeds, p.Sound deeds d.left.run) ∧ ∃ deeds, p'.Sound deeds d.right.run := by
  induction h with
  | start => exact ⟨⟨_, .start⟩, ⟨_, .start⟩⟩
  | step side move _ hstep ih =>
    rcases step_cases hstep with ⟨-, hgoes, hsame⟩ | ⟨-, hgoes, hsame⟩
    · exact ⟨hgoes.sound ih.1, hsame ▸ ih.2⟩
    · exact ⟨hsame ▸ ih.1, hgoes.sound ih.2⟩

/-! ## Progress -/

/-- The steps that the two runs take at most from here on. -/
def stepsLeft (d : Duo α ω α' ω') : Nat :=
  d.left.stepsLeft + d.right.stepsLeft

namespace Reaches

theorem stepsLeft_lt (h : Reaches p p' l₀ schedule d) (hstep : d.step side move = some d') :
    d'.stepsLeft < d.stepsLeft := by
  rw [stepsLeft, stepsLeft]
  rcases step_cases hstep with ⟨-, hgoes, hsame⟩ | ⟨-, hgoes, hsame⟩
  · rw [hsame]
    exact Nat.add_lt_add_right (hgoes.stepsLeft_lt h.sound.1) _
  · rw [hsame]
    exact Nat.add_lt_add_left (hgoes.stepsLeft_lt h.sound.2) _

theorem length_le (h : Reaches p p' l₀ schedule d) :
    schedule.length + d.stepsLeft ≤ (Duo.start p p' l₀).stepsLeft := by
  induction h with
  | start => exact Nat.le_of_eq (Nat.zero_add _)
  | step side move hr hstep ih =>
    have hlt := hr.stepsLeft_lt hstep
    rw [List.length_append, List.length_singleton]
    omega

/-- A run that has not ended can move, whatever the other one is about. -/
theorem exists_step (h : Reaches p p' l₀ schedule d) (hend : d.left.run.ending? = none) :
    ∃ move, (d.step .left move).isSome := by
  obtain ⟨move, hmove⟩ := Guest.exists_step h.sound.1 hend d.ledger
  exact ⟨move, Option.isSome_map.trans hmove⟩

/-- **Neither run hangs.** Each of them can move until it has ended, every move takes both closer to
their ends, and so no schedule is longer than the numbers of stages allow. -/
theorem progresses (h : Reaches p p' l₀ schedule d) :
    (d.left.run.ending? = none → ∃ move, (d.step .left move).isSome) ∧
      (d.right.run.ending? = none → ∃ move, (d.step .right move).isSome) ∧
      (∀ side move d', d.step side move = some d' → d'.stepsLeft < d.stepsLeft) ∧
      schedule.length + d.stepsLeft ≤ 45 * (p.pipeline.length + p'.pipeline.length) + 118 := by
  refine ⟨h.exists_step, fun hend => ?_, fun side move d' => h.stepsLeft_lt, ?_⟩
  · obtain ⟨move, hmove⟩ := h.swap.exists_step hend
    exact ⟨move, (isSome_step .right move d).symm.trans hmove⟩
  · have hle := h.length_le
    have hstart : (Duo.start p p' l₀).stepsLeft =
        5 * (0 + (9 * p.pipeline.length + 11)) + 4 +
          (5 * (0 + (9 * p'.pipeline.length + 11)) + 4) := rfl
    omega

/-- Two runs can be brought to their ends from wherever they are. -/
theorem exists_ended (h : Reaches p p' l₀ schedule d) :
    ∃ schedule' d', Reaches p p' l₀ (schedule ++ schedule') d' ∧ d'.left.run.ending?.isSome ∧
      d'.right.run.ending?.isSome := by
  induction hn : d.stepsLeft using Nat.strongRecOn generalizing schedule d with
  | ind n ih =>
    subst hn
    have hgo (side : Side) (hmove : ∃ move, (d.step side move).isSome) :
        ∃ schedule' d', Reaches p p' l₀ (schedule ++ schedule') d' ∧
          d'.left.run.ending?.isSome ∧ d'.right.run.ending?.isSome := by
      obtain ⟨move, hmove⟩ := hmove
      obtain ⟨d₁, hstep⟩ := Option.isSome_iff_exists.mp hmove
      obtain ⟨schedule', d', h', hends⟩ :=
        ih _ (h.stepsLeft_lt hstep) (h.step side move hstep) rfl
      exact ⟨_, d', List.append_assoc .. ▸ h', hends⟩
    cases hleft : d.left.run.ending? with
    | none => exact hgo .left (h.progresses.1 hleft)
    | some e =>
      cases hright : d.right.run.ending? with
      | none => exact hgo .right (h.progresses.2.1 hright)
      | some e' =>
        exact ⟨[], d, (List.append_nil schedule).symm ▸ h, by rw [hleft]; rfl, by rw [hright]; rfl⟩

/-! ## Schedules -/

/-- What is played out is reached. -/
theorem play {turns : List (Side × Move)} (h : Reaches p p' l₀ schedule d)
    (hplay : d.play turns = some d') : Reaches p p' l₀ (schedule ++ turns) d' := by
  induction turns generalizing schedule d with
  | nil => cases hplay; rwa [List.append_nil]
  | cons turn rest ih =>
    obtain ⟨d₁, hstep, hrest⟩ := Option.bind_eq_some_iff.mp hplay
    have h₁ := ih (h.step turn.1 turn.2 hstep) hrest
    rwa [List.append_assoc] at h₁

/-- The left run goes on while the right one does not move. -/
theorem goOn {n : Nat} {l : Ledger} {g : Guest α ω} (h : Reaches p p' l₀ schedule d)
    (hgo : Guest.goOn move n (d.ledger, d.left) = some (l, g)) :
    Reaches p p' l₀ (schedule ++ List.replicate n (.left, move)) ⟨l, g, d.right⟩ := by
  induction n generalizing schedule d with
  | zero => cases hgo; rwa [List.replicate_zero, List.append_nil]
  | succ n ih =>
    obtain ⟨⟨l₁, g₁⟩, hstep, hrest⟩ := Option.bind_eq_some_iff.mp hgo
    have h₁ : Reaches p p' l₀ (schedule ++ [(.left, move)]) ⟨l₁, g₁, d.right⟩ :=
      h.step .left move (by rw [Duo.step, hstep]; rfl)
    have h₂ := ih h₁ hrest
    rwa [List.append_assoc] at h₂

end Reaches

end Duo

/-- **What a run comes to alone, it comes to beside a run that does not move.** -/
theorem Plan.Reaches.beside {p : Plan α ω} {l₀ l : Ledger} {schedule : List Move}
    {deeds : List Deed} {v : Invocation α ω} (h : p.Reaches l₀ schedule deeds l v)
    (p' : Plan α' ω') :
    ∃ turns, Duo.Reaches p p' l₀ turns ⟨l, { run := v }, { run := p'.start }⟩ := by
  induction h with
  | start => exact ⟨[], .start⟩
  | step move _ hstep ih =>
    obtain ⟨turns, hreach⟩ := ih
    obtain ⟨n, hgo⟩ := Guest.step_alone hstep
    exact ⟨_, hreach.goOn hgo⟩

end Relay
