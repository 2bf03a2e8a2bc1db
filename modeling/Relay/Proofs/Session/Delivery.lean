import Relay.Proofs.Session.Ends

/-!
# Delivery through the channels of a session

A channel is created in a session and taken apart, and a producer and a consumer use its ends under
its name (`Session.Exchange`). What the session answers, and what it keeps in the channel, is what a
link does that starts from a new channel:

* `Session.Linked.use`: what the ends of a channel answer, and what becomes of it;
* `Session.Apart.opens`: a channel that was created and taken apart is new, whatever was done before;
* `Session.Exchange.Follows.step`: the two of them get as far as those of the link;
* `Session.delivers_in_order`: so values are delivered in order through the channels of a session.
-/

namespace Relay

namespace Session

variable {s : Session} {key name : String} {k : Nat} {c : Channel Payload} {host : Host}

/-! ## Using the ends of a channel -/

/-- What is done with an end of a channel. -/
inductive Use where
  | send (a : Payload)
  | receive
  | dropSender
  | dropReceiver

namespace Use

/-- The action on the ends that are under a name. -/
def action (name : String) : Use → Action
  | .send a => .sendOn name a
  | .receive => .receiveOn name
  | .dropSender => .dropSender name
  | .dropReceiver => .dropReceiver name

/-- What is answered, and what is left of the channel. An end that was dropped is missing. -/
def on (c : Channel Payload) : Use → Outcome × Channel Payload
  | .send a =>
    if c.sender then
      match c.send a with
      | .done c' => (.done, c')
      | .blocked => (.wouldBlock, c)
      | .closed => (.closed, c)
    else (.missing, c)
  | .receive =>
    if c.receiver then
      match c.receive with
      | .done (p, c') => (.value p, c')
      | .blocked => (.wouldBlock, c)
      | .closed => (.closed, c)
    else (.missing, c)
  | .dropSender => (if c.sender then .done else .missing, c.closeSender)
  | .dropReceiver => (if c.receiver then .done else .missing, c.closeReceiver)

variable {a p : Payload}

theorem send_done_iff : (on c (.send a)).1 = .done ↔
    c.sender = true ∧ c.receiver = true ∧ c.occupancy < c.capacity := by
  rw [on, Channel.send, Channel.occupancy]
  cases c.sender <;> cases c.receiver <;> by_cases hroom : c.queue.length < c.capacity <;>
    simp [hroom]

theorem send_blocked_iff : (on c (.send a)).1 = .wouldBlock ↔
    c.sender = true ∧ c.send a = .blocked := by
  rw [on]
  cases c.sender <;> cases c.send a <;> simp

theorem send_closed_iff : (on c (.send a)).1 = .closed ↔
    c.sender = true ∧ c.send a = .closed := by
  rw [on]
  cases c.sender <;> cases c.send a <;> simp

theorem receive_value_iff : (on c .receive).1 = .value p ↔
    c.receiver = true ∧ ∃ rest, c.queue = p :: rest := by
  rw [on, Channel.receive]
  cases c.receiver <;> cases c.queue <;> cases c.sender <;> simp

theorem receive_blocked_iff : (on c .receive).1 = .wouldBlock ↔
    c.receiver = true ∧ c.receive = .blocked := by
  rw [on]
  cases c.receiver <;> cases c.receive <;> simp

theorem receive_closed_iff : (on c .receive).1 = .closed ↔
    c.receiver = true ∧ c.receive = .closed := by
  rw [on]
  cases c.receiver <;> cases c.receive <;> simp

end Use

/-- The ends of the channel at `k`, which is as `c` says, are under a name as long as they are not
dropped, and no thread has one of them. -/
structure Linked (s : Session) (name : String) (k : Nat) (c : Channel Payload) : Prop where
  channel : s.channels[k]? = some c
  sender : s.senders.find? name = if c.sender then some k else none
  receiver : s.receivers.find? name = if c.receiver then some k else none
  idle : ∀ t ∈ s.tasks, t.source ≠ some k ∧ t.target ≠ some k

namespace Linked

theorem ready (h : s.Linked name k c) (key : String) : (s.ready key).Linked name k c :=
  ⟨h.channel, h.sender, h.receiver, h.idle⟩

theorem channel_eq (h : s.Linked name k c) : s.channel k = c := by
  rw [Session.channel, h.channel]
  rfl

theorem lt_size (h : s.Linked name k c) : k < s.channels.size :=
  (Array.getElem?_eq_some_iff.mp h.channel).1

/-- Threads go on with other channels only. -/
theorem settle (h : s.Linked name k c) : s.settle.Linked name k c := by
  refine settle_induction (P := fun s => s.Linked name k c) (fun s s' hs h => ?_) h
  obtain ⟨i, t, t', channels, note, ht, hstep, rfl⟩ := of_threadStep hs
  obtain ⟨hsource, htarget, -, hsame⟩ := Task.of_step hstep
  have hidle := h.idle t (Array.mem_of_getElem? ht)
  refine ⟨(hsame k hidle.1 hidle.2).trans h.channel, h.sender, h.receiver, fun u hu => ?_⟩
  rcases Array.mem_or_eq_of_mem_setIfInBounds hu with hu | rfl
  · exact h.idle u hu
  · rw [hsource, htarget]
    exact hidle

theorem modify (h : s.Linked name k c) (f : Channel Payload → Channel Payload) :
    (s.channels.modify k f)[k]? = some (f c) := by
  rw [Array.getElem?_modify, if_pos rfl, h.channel]
  rfl

/-- A channel is used whose ends stay where they are. -/
theorem setChannel {c' : Channel Payload} (h : s.Linked name k c) (hsender : c'.sender = c.sender)
    (hreceiver : c'.receiver = c.receiver) : (s.setChannel k c').Linked name k c' where
  channel := Array.getElem?_setIfInBounds_self_of_lt h.lt_size
  sender := hsender ▸ h.sender
  receiver := hreceiver ▸ h.receiver
  idle := h.idle

theorem sendOn (h : s.Linked name k c) (a : Payload) :
    (s.sendOn name a).1.outcome = (Use.on c (.send a)).1 ∧
      (s.sendOn name a).2.Linked name k (Use.on c (.send a)).2 := by
  have hsender := h.sender
  rw [Session.sendOn, Use.on]
  cases hheld : c.sender with
  | false =>
    rw [hheld] at hsender
    rw [hsender]
    exact ⟨rfl, h⟩
  | true =>
    rw [hheld] at hsender
    rw [hsender, if_pos rfl]
    simp only [if_true, h.channel_eq]
    cases hsend : c.send a with
    | done c' =>
      obtain ⟨-, -, rfl⟩ := Channel.of_send_done hsend
      exact ⟨rfl, h.setChannel rfl rfl⟩
    | blocked | closed => exact ⟨rfl, h⟩

theorem receiveOn (h : s.Linked name k c) :
    (s.receiveOn name).1.outcome = (Use.on c .receive).1 ∧
      (s.receiveOn name).2.Linked name k (Use.on c .receive).2 := by
  have hreceiver := h.receiver
  rw [Session.receiveOn, Use.on]
  cases hheld : c.receiver with
  | false =>
    rw [hheld] at hreceiver
    rw [hreceiver]
    exact ⟨rfl, h⟩
  | true =>
    rw [hheld] at hreceiver
    rw [hreceiver, if_pos rfl]
    simp only [if_true, h.channel_eq]
    cases hreceive : c.receive with
    | done value =>
      obtain ⟨p, c'⟩ := value
      obtain ⟨-, hc⟩ := Channel.of_receive_done hreceive
      rw [hc]
      exact ⟨rfl, h.setChannel rfl rfl⟩
    | blocked | closed => exact ⟨rfl, h⟩

theorem dropSender (h : s.Linked name k c) :
    (s.dropSender name).1.outcome = (Use.on c .dropSender).1 ∧
      (s.dropSender name).2.Linked name k (Use.on c .dropSender).2 := by
  have hsender := h.sender
  rw [Session.dropSender, Use.on]
  cases hheld : c.sender with
  | false =>
    rw [hheld] at hsender
    rw [hsender]
    exact ⟨rfl, h.channel.trans (by rw [Channel.closeSender, ← hheld]), hsender, h.receiver, h.idle⟩
  | true =>
    rw [hheld] at hsender
    rw [hsender]
    exact ⟨rfl, h.modify _, Directory.find?_erase_self .., h.receiver, h.idle⟩

theorem dropReceiver (h : s.Linked name k c) :
    (s.dropReceiver name).1.outcome = (Use.on c .dropReceiver).1 ∧
      (s.dropReceiver name).2.Linked name k (Use.on c .dropReceiver).2 := by
  have hreceiver := h.receiver
  rw [Session.dropReceiver, Use.on]
  cases hheld : c.receiver with
  | false =>
    rw [hheld] at hreceiver
    rw [hreceiver]
    exact ⟨rfl, h.channel.trans (by rw [Channel.closeReceiver, ← hheld]), h.sender, hreceiver,
      h.idle⟩
  | true =>
    rw [hheld] at hreceiver
    rw [hreceiver]
    exact ⟨rfl, h.modify _, h.sender, Directory.find?_erase_self .., h.idle⟩

/-- **What the ends of a channel answer, and what becomes of it.** -/
theorem use (h : s.Linked name k c) (key : String) (u : Use) (host : Host) :
    (s.act key (u.action name) host).1.outcome = (u.on c).1 ∧
      (s.act key (u.action name) host).2.Linked name k (u.on c).2 := by
  have hready := h.ready key
  cases u with
  | send a => exact (hready.sendOn a).imp_right settle
  | receive => exact hready.receiveOn.imp_right settle
  | dropSender => exact hready.dropSender.imp_right settle
  | dropReceiver => exact hready.dropReceiver.imp_right settle

end Linked

/-! ## Taking a new channel apart -/

/-- The channel at `k` has both of its ends and is under a name. -/
structure Fresh (s : Session) (name : String) (k : Nat) (capacity : Capacity) : Prop where
  apart : Apart [] s
  channel : s.channels[k]? = some (.ofCapacity capacity)
  whole : ∃ filed, s.wholes.find? name = some ⟨k, filed⟩

theorem Fresh.not_uses {capacity : Capacity} (h : s.Fresh name k capacity) : ¬ s.Uses k := by
  obtain ⟨filed, hfind⟩ := h.whole
  have hmem : k ∈ s.wholes.objects.map Whole.channel :=
    List.mem_map.mpr ⟨_, Directory.mem_of_find? hfind, rfl⟩
  exact h.apart.alone k (List.mem_append_right _ hmem)

theorem Apart.fresh_create (h : Apart [] s) (key name : String) (capacity : Capacity) :
    (∃ id, (s.create key name capacity.val).1 =
        ⟨.observed, [.id id, .capacity capacity.val, .occupancy 0]⟩) ∧
      (s.create key name capacity.val).2.Fresh name s.channels.size capacity := by
  have hapart := h.create key name capacity.val
  have hnew : (s.channels.push (.ofCapacity capacity))[s.channels.size]? =
      some (.ofCapacity capacity) := Array.getElem?_push_size
  rw [Session.create, capacity.ofNat?_val] at hapart ⊢
  refine ⟨⟨_, rfl⟩, hapart, ?_, ?_⟩
  · cases hfind : s.wholes.find? name with
    | none => exact hnew
    | some old =>
      -- A channel that had the name is older than the new one.
      obtain ⟨c, hc, -⟩ := h.intact old (Directory.mem_of_find? hfind)
      have hne : old.channel ≠ s.channels.size :=
        Nat.ne_of_lt (Array.getElem?_eq_some_iff.mp hc).1
      have hclose (f : Channel Payload → Channel Payload) (channels : Array (Channel Payload)) :
          (channels.modify old.channel f)[s.channels.size]? = channels[s.channels.size]? :=
        (Array.getElem?_modify ..).trans (if_neg hne)
      exact ((hclose _ _).trans (hclose _ _)).trans hnew
  · cases s.wholes.find? name <;> exact ⟨_, Directory.find?_put_self ..⟩

theorem Fresh.ready {capacity : Capacity} (h : s.Fresh name k capacity) (key : String) :
    (s.ready key).Fresh name k capacity :=
  ⟨h.apart.within (.of_eq rfl rfl rfl rfl rfl), h.channel, h.whole⟩

theorem Fresh.settle {capacity : Capacity} (h : s.Fresh name k capacity) :
    s.settle.Fresh name k capacity := by
  have hwithin : Within [] s s.settle := .settle s
  refine ⟨h.apart.within hwithin, ?_, hwithin.wholes ▸ h.whole⟩
  exact (hwithin.same k h.not_uses List.not_mem_nil).trans h.channel

/-- The sending end that had the name is that of another channel. -/
theorem of_putSender {j : Nat} (hk : s.senders.find? name ≠ some k) :
    (s.putSender name j).channels[k]? = s.channels[k]? ∧
      (s.putSender name j).senders.find? name = some j ∧
      (s.putSender name j).receivers = s.receivers ∧ (s.putSender name j).tasks = s.tasks := by
  rw [putSender]
  cases hfind : s.senders.find? name with
  | none => exact ⟨rfl, Directory.find?_put_self .., rfl, rfl⟩
  | some old =>
    have hne : old ≠ k := fun heq => hk (heq ▸ hfind)
    exact ⟨(Array.getElem?_modify ..).trans (if_neg hne), Directory.find?_put_self .., rfl, rfl⟩

theorem of_putReceiver {j : Nat} (hk : s.receivers.find? name ≠ some k) :
    (s.putReceiver name j).channels[k]? = s.channels[k]? ∧
      (s.putReceiver name j).receivers.find? name = some j ∧
      (s.putReceiver name j).senders = s.senders ∧ (s.putReceiver name j).tasks = s.tasks := by
  rw [putReceiver]
  cases hfind : s.receivers.find? name with
  | none => exact ⟨rfl, Directory.find?_put_self .., rfl, rfl⟩
  | some old =>
    have hne : old ≠ k := fun heq => hk (heq ▸ hfind)
    exact ⟨(Array.getElem?_modify ..).trans (if_neg hne), Directory.find?_put_self .., rfl, rfl⟩

theorem Linked.putRecord (h : s.Linked name k c) (name' : String) (f : Filed String) :
    (s.putRecord name' f).Linked name k c := by
  rw [Session.putRecord]
  cases s.records.find? name' <;> exact ⟨h.channel, h.sender, h.receiver, h.idle⟩

/-- A channel that is taken apart is as it was, with its ends under its name. -/
theorem Fresh.linked_split {capacity : Capacity} (h : s.Fresh name k capacity) :
    (s.split name).1.outcome = .done ∧
      (s.split name).2.Linked name k (.ofCapacity capacity) := by
  obtain ⟨filed, hfind⟩ := h.whole
  have hsender : s.senders.find? name ≠ some k := fun hk =>
    h.not_uses (.inl (Directory.mem_of_find? hk))
  have hreceiver : s.receivers.find? name ≠ some k := fun hk =>
    h.not_uses (.inr (.inl (Directory.mem_of_find? hk)))
  rw [Session.split, hfind]
  refine ⟨rfl, .putRecord ?_ name filed⟩
  obtain ⟨hchannel, hput, hreceivers, htasks⟩ :=
    of_putSender (s := { s with wholes := s.wholes.erase name }) (j := k) hsender
  obtain ⟨hchannel', hput', hsenders, htasks'⟩ :=
    of_putReceiver (s := ({ s with wholes := s.wholes.erase name } : Session).putSender name k)
      (j := k) (hreceivers ▸ hreceiver)
  refine ⟨(hchannel'.trans hchannel).trans h.channel, hsenders ▸ hput, hput', fun t ht => ?_⟩
  rw [htasks', htasks] at ht
  exact ⟨fun hsource => h.not_uses (.inr (.inr ⟨t, ht, .inl hsource⟩)),
    fun htarget => h.not_uses (.inr (.inr ⟨t, ht, .inr htarget⟩))⟩

/-- The session after a channel was created and taken apart. -/
def opened (s : Session) (key name : String) (capacity : Nat) (host : Host) : Session :=
  ((s.act key (.create name capacity) host).2.act key (.split name) host).2

/-- What is answered when a channel is created and taken apart. -/
structure Opens (s : Session) (key name : String) (capacity : Capacity) (host : Host) : Prop where
  create : ∃ id, (s.act key (.create name capacity.val) host).1 =
    ⟨.observed, [.id id, .capacity capacity.val, .occupancy 0]⟩
  split : ((s.act key (.create name capacity.val) host).2.act key (.split name) host).1.outcome =
    .done

/-- **A channel that was created and taken apart is new, with both of its ends under its name.** -/
theorem Apart.opens (h : Apart [] s) (key name : String) (capacity : Capacity) (host : Host) :
    s.Opens key name capacity host ∧
      (s.opened key name capacity.val host).Linked name s.channels.size (.ofCapacity capacity) := by
  have hready : Apart [] (s.ready key) := h.within (.of_eq rfl rfl rfl rfl rfl)
  obtain ⟨hcreate, hfresh⟩ := hready.fresh_create key name capacity
  obtain ⟨hsplit, hlinked⟩ := (hfresh.settle.ready key).linked_split
  exact ⟨⟨hcreate, hsplit⟩, hlinked.settle⟩

/-! ## A producer and a consumer -/

/-- A session, and what a producer and a consumer have done with the ends of a channel of it. -/
structure Exchange where
  session : Session
  /-- What the producer is still to send. -/
  todo : List Payload
  /-- What was sent, oldest first. -/
  sent : List Payload := []
  /-- What could not be sent, as the receiver was gone. -/
  refused : List Payload := []
  /-- What the consumer has received, oldest first. -/
  got : List Payload := []

namespace Exchange

variable {e : Exchange} {l : Link Payload}

/-- What a move leaves, by what the session answers. -/
def step (key name : String) (host : Host) (e : Exchange) : Link.Move → Exchange
  | .send =>
    match e.todo with
    | [] => e
    | a :: rest =>
      let (reply, session) := e.session.act key (.sendOn name a) host
      match reply.outcome with
      | .done => { e with session, todo := rest, sent := e.sent ++ [a] }
      | .closed => { e with session, todo := rest, refused := e.refused ++ [a] }
      | _ => { e with session }
  | .receive =>
    let (reply, session) := e.session.act key (.receiveOn name) host
    match reply.outcome with
    | .value p => { e with session, got := e.got ++ [p] }
    | _ => { e with session }
  | .dropSender => { e with session := (e.session.act key (.dropSender name) host).2 }
  | .dropReceiver => { e with session := (e.session.act key (.dropReceiver name) host).2 }

/-- What some moves leave. -/
def play (key name : String) (host : Host) (e : Exchange) (moves : List Link.Move) : Exchange :=
  moves.foldl (step key name host) e

/-- The two are as far as those of a link are, and their channel is as that of the link is. -/
structure Follows (name : String) (k : Nat) (e : Exchange) (l : Link Payload) : Prop where
  linked : e.session.Linked name k l.channel
  todo : e.todo = l.todo
  sent : e.sent = l.sent
  refused : e.refused = l.refused
  got : e.got = l.got

theorem Follows.send (h : e.Follows name k l) (key : String) (host : Host) :
    (e.step key name host .send).Follows name k (l.step .send) := by
  rw [step, Link.step, h.todo]
  cases htodo : l.todo with
  | nil => exact h
  | cons a rest =>
    obtain ⟨hreply, hlinked⟩ := h.linked.use key (.send a) host
    rw [Use.action] at hreply hlinked
    simp only [hreply]
    rw [Use.on] at hlinked ⊢
    cases hsender : l.channel.sender with
    | false =>
      simp only [hsender, Bool.false_eq_true, if_false] at hlinked ⊢
      exact ⟨hlinked, htodo.symm, h.sent, h.refused, h.got⟩
    | true =>
      simp only [hsender, if_true] at hlinked ⊢
      cases hsend : l.channel.send a with
      | done c =>
        rw [hsend] at hlinked
        exact ⟨hlinked, rfl, congrArg (· ++ [a]) h.sent, h.refused, h.got⟩
      | blocked =>
        rw [hsend] at hlinked
        exact ⟨hlinked, htodo.symm, h.sent, h.refused, h.got⟩
      | closed =>
        rw [hsend] at hlinked
        exact ⟨hlinked, rfl, h.sent, congrArg (· ++ [a]) h.refused, h.got⟩

theorem Follows.receive (h : e.Follows name k l) (key : String) (host : Host) :
    (e.step key name host .receive).Follows name k (l.step .receive) := by
  obtain ⟨hreply, hlinked⟩ := h.linked.use key .receive host
  rw [Use.action] at hreply hlinked
  rw [step, Link.step]
  simp only [hreply]
  rw [Use.on] at hlinked ⊢
  cases hreceiver : l.channel.receiver with
  | false =>
    simp only [hreceiver, Bool.false_eq_true, if_false] at hlinked ⊢
    exact ⟨hlinked, h.todo, h.sent, h.refused, h.got⟩
  | true =>
    simp only [hreceiver, if_true] at hlinked ⊢
    cases hreceive : l.channel.receive with
    | done value =>
      rw [hreceive] at hlinked
      exact ⟨hlinked, h.todo, h.sent, h.refused, congrArg (· ++ [value.1]) h.got⟩
    | blocked | closed =>
      rw [hreceive] at hlinked
      exact ⟨hlinked, h.todo, h.sent, h.refused, h.got⟩

/-- **The two get as far as those of the link**, with every move. -/
theorem Follows.step (h : e.Follows name k l) (key : String) (host : Host) (m : Link.Move) :
    (e.step key name host m).Follows name k (l.step m) := by
  cases m with
  | send => exact h.send key host
  | receive => exact h.receive key host
  | dropSender =>
    exact ⟨(h.linked.use key .dropSender host).2, h.todo, h.sent, h.refused, h.got⟩
  | dropReceiver =>
    exact ⟨(h.linked.use key .dropReceiver host).2, h.todo, h.sent, h.refused, h.got⟩

theorem Follows.play (h : e.Follows name k l) (key : String) (host : Host)
    (moves : List Link.Move) : (e.play key name host moves).Follows name k (l.play moves) := by
  induction moves generalizing e l with
  | nil => exact h
  | cons m moves ih => exact ih (h.step key host m)

/-- What holds of a producer, who is to send `vs`, and a consumer at the ends of the new channel at
`k` after some moves: what the session keeps, and what it answers to either of them. -/
structure Delivers (name : String) (k : Nat) (capacity : Capacity) (vs : List Payload)
    (moves : List Link.Move) (e : Exchange) : Prop where
  /-- Each value whose send was done is received or queued, in order. -/
  fifo : e.got ++ (e.session.channel k).queue = e.sent
  sent : e.sent <+: vs
  occupancy : (e.session.channel k).occupancy = e.sent.length - e.got.length
  fits : e.got.length ≤ e.sent.length ∧ (e.session.channel k).occupancy ≤ capacity.val
  send_done : ∀ key a host, (e.session.act key (.sendOn name a) host).1.outcome = .done ↔
    .dropSender ∉ moves ∧ .dropReceiver ∉ moves ∧ (e.session.channel k).occupancy < capacity.val
  send_blocked : ∀ key a host, (e.session.act key (.sendOn name a) host).1.outcome = .wouldBlock ↔
    .dropSender ∉ moves ∧ .dropReceiver ∉ moves ∧ (e.session.channel k).occupancy = capacity.val
  send_closed : ∀ key a host, (e.session.act key (.sendOn name a) host).1.outcome = .closed ↔
    .dropSender ∉ moves ∧ .dropReceiver ∈ moves
  /-- The values are received one by one. -/
  receive_value : ∀ key p host, (e.session.act key (.receiveOn name) host).1.outcome = .value p ↔
    .dropReceiver ∉ moves ∧ e.got ++ [p] <+: e.sent
  receive_blocked : ∀ key host, (e.session.act key (.receiveOn name) host).1.outcome = .wouldBlock ↔
    .dropReceiver ∉ moves ∧ .dropSender ∉ moves ∧ e.got = e.sent
  /-- The sender is seen to be gone only when everything was received. -/
  receive_closed : ∀ key host, (e.session.act key (.receiveOn name) host).1.outcome = .closed ↔
    .dropReceiver ∉ moves ∧ .dropSender ∈ moves ∧ e.got = e.sent

theorem Follows.delivers {capacity : Capacity} {vs : List Payload} {moves : List Link.Move}
    (h : e.Follows name k ((Link.start capacity vs).play moves)) :
    e.Delivers name k capacity vs moves := by
  have hsound : Link.Sound (.ofCapacity capacity) vs ((Link.start capacity vs).play moves) :=
    (Link.Sound.start (Nat.zero_le _) vs).play moves
  have hends := Link.play_ends (Link.start capacity vs) moves
  generalize (Link.start capacity vs).play moves = l at h hsound hends
  have hlink := hsound.delivers
  have hcapacity : l.channel.capacity = capacity.val := hsound.capacity
  have hsender : l.channel.sender = true ↔ .dropSender ∉ moves :=
    hends.1.trans (and_iff_right rfl)
  have hreceiver : l.channel.receiver = true ↔ .dropReceiver ∉ moves :=
    hends.2.trans (and_iff_right rfl)
  have hgone : l.channel.sender = false ↔ .dropSender ∈ moves := by
    rw [← Bool.not_eq_true, hsender, not_not]
  have hgone' : l.channel.receiver = false ↔ .dropReceiver ∈ moves := by
    rw [← Bool.not_eq_true, hreceiver, not_not]
  have hsend (key : String) (a : Payload) (host : Host) :
      (e.session.act key (.sendOn name a) host).1.outcome = (Use.on l.channel (.send a)).1 :=
    (h.linked.use key (.send a) host).1
  have hreceive (key : String) (host : Host) :
      (e.session.act key (.receiveOn name) host).1.outcome = (Use.on l.channel .receive).1 :=
    (h.linked.use key .receive host).1
  constructor
  case fifo =>
    rw [h.linked.channel_eq, h.got, h.sent]
    exact hlink.fifo
  case sent =>
    rw [h.sent]
    exact hlink.sent
  case occupancy =>
    rw [h.linked.channel_eq, h.got, h.sent]
    exact hlink.occupancy
  case fits =>
    rw [h.linked.channel_eq, h.got, h.sent]
    exact hlink.fits
  case send_done =>
    intro key a host
    rw [hsend, Use.send_done_iff, h.linked.channel_eq, hsender, hreceiver, hcapacity]
  case send_blocked =>
    intro key a host
    rw [hsend, Use.send_blocked_iff, h.linked.channel_eq, hlink.send_blocked, hsender, hreceiver,
      and_comm (b := _ ∉ moves)]
  case send_closed =>
    intro key a host
    rw [hsend, Use.send_closed_iff, hlink.send_closed, hsender, hgone']
  case receive_value =>
    intro key p host
    have hnext : (∃ rest, l.channel.queue = p :: rest) ↔ l.got ++ [p] <+: l.sent := by
      rw [← hlink.fifo, List.prefix_append_right_inj]
      exact exists_congr fun rest => eq_comm
    rw [hreceive, Use.receive_value_iff, hnext, hreceiver, h.got, h.sent]
  case receive_blocked =>
    intro key host
    rw [hreceive, Use.receive_blocked_iff, hlink.receive_blocked, hreceiver, hsender, h.got, h.sent]
  case receive_closed =>
    intro key host
    rw [hreceive, Use.receive_closed_iff, hlink.receive_closed, hreceiver, hgone, h.got, h.sent]

end Exchange

/-! ## The channels of a session -/

/-- What is answered when a channel is used that was not taken apart. -/
structure Connected (s : Session) : Prop where
  send : ∀ key name value host stage,
    (s.act key (.send name value) host).1.outcome ≠ .fault (.disconnected stage)
  receive : ∀ key name host stage,
    (s.act key (.receive name) host).1.outcome ≠ .fault (.disconnected stage)

theorem Apart.connected (h : Apart [] s) : s.Connected where
  send key name value host stage := by
    have hready : Apart [] (s.ready key) := h.within (.of_eq rfl rfl rfl rfl rfl)
    rw [act_reply, Session.perform, Session.send]
    split
    next => rintro ⟨⟩
    next w hfind =>
      split
      next => rintro ⟨⟩
      next => rintro ⟨⟩
      next hclosed =>
        have hgone := Channel.send_eq_closed_iff.mp hclosed
        rw [(hready.channel_ends hfind).2] at hgone
        cases hgone
  receive key name host stage := by
    have hready : Apart [] (s.ready key) := h.within (.of_eq rfl rfl rfl rfl rfl)
    rw [act_reply, Session.perform, Session.receive]
    split
    next => rintro ⟨⟩
    next w hfind =>
      split
      next => rintro ⟨⟩
      next => rintro ⟨⟩
      next hclosed =>
        have hgone := (Channel.receive_eq_closed_iff.mp hclosed).1
        rw [(hready.channel_ends hfind).1] at hgone
        cases hgone

/-- What holds of the channels of a session. -/
structure ChannelLaw (s : Session) : Prop where
  /-- A channel is created with a capacity in range, and with no other. -/
  refused : ∀ key name n host, ¬ (1 ≤ n ∧ n ≤ maxCapacity) →
    (s.act key (.create name n) host).1.outcome = .fault (.invalidCapacity n)
  opens : ∀ key name capacity host, s.Opens key name capacity host
  /-- Whatever the producer and the consumer do, and whenever. -/
  delivers : ∀ key name capacity host vs moves,
    ({ session := s.opened key name capacity.val host, todo := vs : Exchange }.play key name host
      moves).Delivers name s.channels.size capacity vs moves
  /-- A channel that was not taken apart is not found closed. -/
  connected : s.Connected

theorem Apart.channelLaw (h : Apart [] s) : s.ChannelLaw where
  refused _ _ _ _ hn := congrArg Reply.outcome (create_refused hn).1
  opens key name capacity host := (h.opens key name capacity host).1
  delivers key name capacity host _ moves :=
    Exchange.Follows.delivers (.play ⟨(h.opens key name capacity host).2, rfl, rfl, rfl, rfl⟩ key
      host moves)
  connected := h.connected

/-- **Single delivery in order.** Whatever was done with a session, a channel with a capacity in
range is created in it and taken apart, and over the two ends every value that is sent is received
once and in order, whatever the producer and the consumer do and whenever they drop their ends; and
a channel that was not taken apart is never found closed. -/
theorem delivers_in_order (script : List (String × Action × Host)) : (after script).ChannelLaw :=
  (apart_after script).channelLaw

/-- The second send waits for the first value to be taken, and the sender goes away while the second
value is queued, which is received nevertheless. -/
example :
    let e : Exchange := { session := opened {} "main" "c" 1 .usual, todo := [.bool true, .unit] }
    (e.play "main" "c" .usual
      [.send, .send, .receive, .send, .dropSender, .receive, .receive]).got = [.bool true, .unit] :=
  rfl

end Session

end Relay
