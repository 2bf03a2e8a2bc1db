import Mathlib.Data.List.Infix
import Relay.Channel

/-!
# Delivery through a channel

A producer sends values on one end of a channel and a consumer receives them on the other one. They
take turns in any order, and either may drop its end at any time (`Link.play`). However they do, no
value is lost, repeated or overtaken:

* `Link.Sound.step`: what was received and what is queued is what was sent;
* `Link.Sound.delivers`: what this says of the channel, and of what the two of them get to see;
* `Link.play_ends`: each end is there until it is dropped.
-/

namespace Relay

variable {α : Type}

namespace Channel

variable {c c' : Channel α} {a : α}

theorem send_eq_closed_iff : c.send a = .closed ↔ c.receiver = false := by
  rw [send]
  cases c.receiver
  · simp
  · simp only [if_true]
    split <;> simp

theorem send_eq_blocked_iff :
    c.send a = .blocked ↔ c.receiver = true ∧ c.capacity ≤ c.occupancy := by
  rw [send, occupancy]
  cases c.receiver
  · simp
  · simp only [if_true, true_and]
    split <;> simp <;> omega

theorem of_send_done (h : c.send a = .done c') :
    c.receiver = true ∧ c.occupancy < c.capacity ∧ c' = { c with queue := c.queue ++ [a] } := by
  rw [send] at h
  split at h
  · split at h
    · cases h
      exact ⟨‹_›, ‹_›, rfl⟩
    · cases h
  · cases h

theorem receive_eq_closed_iff : c.receive = .closed ↔ c.sender = false ∧ c.queue = [] := by
  rw [receive]
  split
  · simp_all
  · cases c.sender <;> simp_all

theorem receive_eq_blocked_iff : c.receive = .blocked ↔ c.sender = true ∧ c.queue = [] := by
  rw [receive]
  split
  · simp_all
  · cases c.sender <;> simp_all

theorem of_receive_done (h : c.receive = .done (a, c')) :
    c.queue = a :: c'.queue ∧ c' = { c with queue := c'.queue } := by
  rw [receive] at h
  split at h
  · rename_i hq
    cases h
    exact ⟨hq, rfl⟩
  · split at h <;> cases h

end Channel

/-- A channel between a producer and a consumer, and what they have done with it. -/
structure Link (α : Type) where
  channel : Channel α
  /-- What the producer is still to send. -/
  todo : List α
  /-- What was sent, oldest first. -/
  sent : List α := []
  /-- What could not be sent, as the receiver was gone. -/
  refused : List α := []
  /-- What the consumer has received, oldest first. -/
  got : List α := []

/-- What the producer or the consumer does. -/
inductive Link.Move where
  | send
  | receive
  | dropSender
  | dropReceiver
  deriving DecidableEq, Repr

namespace Link

/-- What a move leaves. Nothing happens while it is blocked, nor if the end that it needs was
dropped or nothing is left to send. -/
def step (l : Link α) : Move → Link α
  | .send =>
    match l.todo with
    | [] => l
    | a :: rest =>
      if l.channel.sender then
        match l.channel.send a with
        | .done c => { l with channel := c, todo := rest, sent := l.sent ++ [a] }
        | .blocked => l
        | .closed => { l with todo := rest, refused := l.refused ++ [a] }
      else l
  | .receive =>
    if l.channel.receiver then
      match l.channel.receive with
      | .done (a, c) => { l with channel := c, got := l.got ++ [a] }
      | _ => l
    else l
  | .dropSender => { l with channel := l.channel.closeSender }
  | .dropReceiver => { l with channel := l.channel.closeReceiver }

/-- What some moves leave. -/
def play (l : Link α) (moves : List Move) : Link α := moves.foldl step l

variable {c₀ : Channel α} {vs : List α} {l : Link α}

/-- The link goes on from the channel `c₀`, and its producer is to send `vs`. -/
structure Sound (c₀ : Channel α) (vs : List α) (l : Link α) : Prop where
  capacity : l.channel.capacity = c₀.capacity
  fits : l.channel.occupancy ≤ c₀.capacity
  fifo : l.got ++ l.channel.queue = c₀.queue ++ l.sent
  parted : l.sent ++ l.refused ++ l.todo = vs
  /-- Nothing is refused while the receiver is there. -/
  heard : l.channel.receiver = true → l.refused = []

theorem Sound.start (hfits : c₀.occupancy ≤ c₀.capacity) (vs : List α) :
    Sound c₀ vs { channel := c₀, todo := vs } :=
  ⟨rfl, hfits, (List.append_nil _).symm, rfl, fun _ => rfl⟩

theorem Sound.send (h : Sound c₀ vs l) : Sound c₀ vs (l.step .send) := by
  rw [step]
  split
  · exact h
  · rename_i a rest htodo
    have hparted := h.parted
    rw [htodo] at hparted
    split
    · split
      · rename_i c hsend
        obtain ⟨hreceiver, hroom, rfl⟩ := Channel.of_send_done hsend
        have hrefused := h.heard hreceiver
        have hcapacity := h.capacity
        constructor
        · exact hcapacity
        · rw [Channel.occupancy, List.length_append]
          exact hcapacity ▸ hroom
        · show l.got ++ (l.channel.queue ++ [a]) = c₀.queue ++ (l.sent ++ [a])
          rw [← List.append_assoc, h.fifo, List.append_assoc]
        · rw [← hparted, hrefused]
          simp only [List.append_nil, List.append_assoc, List.singleton_append]
        · exact fun _ => hrefused
      · exact h
      · rename_i hsend
        have hgone := Channel.send_eq_closed_iff.mp hsend
        refine { h with parted := ?_, heard := fun hreceiver => ?_ }
        · rw [← hparted]
          simp only [List.append_assoc, List.singleton_append]
        · exact absurd (hgone.symm.trans hreceiver) nofun
    · exact h

theorem Sound.receive (h : Sound c₀ vs l) : Sound c₀ vs (l.step .receive) := by
  rw [step]
  split
  · split
    · rename_i a c hreceive
      obtain ⟨hqueue, hc⟩ := Channel.of_receive_done hreceive
      have hfits := h.fits
      have hfifo := h.fifo
      rw [Channel.occupancy, hqueue, List.length_cons] at hfits
      rw [hqueue] at hfifo
      rw [hc]
      exact { h with
        fits := Nat.le_of_succ_le hfits
        fifo := by rw [List.append_assoc]; exact hfifo }
    · exact h
  · exact h

theorem Sound.step (h : Sound c₀ vs l) (m : Move) : Sound c₀ vs (l.step m) := by
  cases m with
  | send => exact h.send
  | receive => exact h.receive
  | dropSender => exact ⟨h.capacity, h.fits, h.fifo, h.parted, h.heard⟩
  | dropReceiver => exact ⟨h.capacity, h.fits, h.fifo, h.parted, nofun⟩

theorem Sound.play (h : Sound c₀ vs l) (moves : List Move) : Sound c₀ vs (l.play moves) := by
  induction moves generalizing l with
  | nil => exact h
  | cons m moves ih => exact ih (h.step m)

theorem step_send_ends (l : Link α) :
    (l.step .send).channel.sender = l.channel.sender ∧
      (l.step .send).channel.receiver = l.channel.receiver := by
  rw [step]
  split
  · exact ⟨rfl, rfl⟩
  · split
    · split
      next hsend =>
        obtain ⟨-, -, rfl⟩ := Channel.of_send_done hsend
        exact ⟨rfl, rfl⟩
      all_goals exact ⟨rfl, rfl⟩
    · exact ⟨rfl, rfl⟩

theorem step_receive_ends (l : Link α) :
    (l.step .receive).channel.sender = l.channel.sender ∧
      (l.step .receive).channel.receiver = l.channel.receiver := by
  rw [step]
  split
  · split
    next hreceive =>
      rw [(Channel.of_receive_done hreceive).2]
      exact ⟨rfl, rfl⟩
    all_goals exact ⟨rfl, rfl⟩
  · exact ⟨rfl, rfl⟩

/-- An end is there until it is dropped. -/
theorem play_ends (l : Link α) (moves : List Move) :
    ((l.play moves).channel.sender = true ↔ l.channel.sender = true ∧ .dropSender ∉ moves) ∧
      ((l.play moves).channel.receiver = true ↔
        l.channel.receiver = true ∧ .dropReceiver ∉ moves) := by
  induction moves generalizing l with
  | nil => simp [play]
  | cons m moves ih =>
    obtain ⟨hsender, hreceiver⟩ := ih (l.step m)
    rw [play, List.foldl_cons, ← play, hsender, hreceiver]
    cases m with
    | send => simp [(step_send_ends l).1, (step_send_ends l).2]
    | receive => simp [(step_receive_ends l).1, (step_receive_ends l).2]
    | dropSender => simp [step, Channel.closeSender]
    | dropReceiver => simp [step, Channel.closeReceiver]

/-- A link over a new channel. -/
def start (capacity : Capacity) (vs : List α) : Link α :=
  { channel := .ofCapacity capacity, todo := vs }

/-- What holds of a link over a new channel at any time. -/
structure Delivers (capacity : Capacity) (vs : List α) (l : Link α) : Prop where
  /-- Each value that was sent is received or queued, in order. -/
  fifo : l.got ++ l.channel.queue = l.sent
  sent : l.sent <+: vs
  occupancy : l.channel.occupancy = l.sent.length - l.got.length
  fits : l.got.length ≤ l.sent.length ∧ l.channel.occupancy ≤ capacity.val
  send_blocked : ∀ a, l.channel.send a = .blocked ↔
    l.channel.occupancy = capacity.val ∧ l.channel.receiver = true
  send_closed : ∀ a, l.channel.send a = .closed ↔ l.channel.receiver = false
  /-- The sender is seen to be gone only when everything was received. -/
  receive_closed : l.channel.receive = .closed ↔ l.channel.sender = false ∧ l.got = l.sent
  receive_blocked : l.channel.receive = .blocked ↔ l.channel.sender = true ∧ l.got = l.sent

theorem Sound.delivers {capacity : Capacity} (h : Sound (.ofCapacity capacity) vs l) :
    Delivers capacity vs l := by
  have hfifo : l.got ++ l.channel.queue = l.sent := h.fifo
  have hcapacity : l.channel.capacity = capacity.val := h.capacity
  have hfits : l.channel.occupancy ≤ capacity.val := h.fits
  have hlength : l.got.length + l.channel.occupancy = l.sent.length := by
    rw [← hfifo, List.length_append, Channel.occupancy]
  have hempty : l.channel.queue = [] ↔ l.got = l.sent := by
    rw [← hfifo, List.self_eq_append_right]
  constructor
  · exact hfifo
  · rw [← h.parted, List.append_assoc]
    exact List.prefix_append _ _
  · omega
  · exact ⟨by omega, hfits⟩
  · intro a
    rw [Channel.send_eq_blocked_iff, hcapacity]
    constructor
    · rintro ⟨hreceiver, hfull⟩
      exact ⟨by omega, hreceiver⟩
    · rintro ⟨hfull, hreceiver⟩
      exact ⟨hreceiver, by omega⟩
  · exact fun _ => Channel.send_eq_closed_iff
  · rw [Channel.receive_eq_closed_iff, hempty]
  · rw [Channel.receive_eq_blocked_iff, hempty]

/-- **Single delivery in order**, whatever the producer and the consumer do, and whenever. -/
theorem delivers (capacity : Capacity) (vs : List α) (moves : List Move) :
    Delivers capacity vs ((start capacity vs).play moves) :=
  ((Sound.start (Nat.zero_le _) vs).play moves).delivers

/-- The second send waits for the first value to be taken, and the sender goes away while the second
value is queued, which is received nevertheless. -/
example : ((start .single [1, 2, 3]).play
    [.send, .send, .receive, .send, .dropSender, .send, .receive, .receive]).got = [1, 2] := rfl

end Link

end Relay
