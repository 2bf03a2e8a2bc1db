import Relay.Proofs.Session.Estate

/-!
# Every action keeps the tally

Whatever is done with the objects of a session, the records and crews that it holds agree with the
history afterwards (`Kept.perform`). The actions are taken one by one; those that only use channels
change nothing of what counts (`Kept.frame`).
-/

namespace Relay.Session.Kept

variable {key name : String} {past : List Event} {hand : List (Filed String)} {n : Nat}
  {s : Session} {host : Host}

/-- Events that tell nothing of channels and threads are logged. -/
theorem note {events : List Event} (h : s.Kept key past hand n)
    (hsilent : ∀ e ∈ events, e.created? = none ∧ e.released? = none) :
    (s.note events).Kept key past hand n :=
  { h with
    tally := by
      have hnoted := h.tally.keep hsilent rfl rfl h.tally.threads
      rwa [List.append_assoc] at hnoted }

/-! ## Using channels -/

theorem send (h : s.Kept key past hand n) (name : String) (value : Payload) :
    (s.send name value).2.Kept key past hand n := by
  unfold Session.send
  repeat' split
  all_goals first | exact h | exact h.frame _ _ _ _

theorem receive (h : s.Kept key past hand n) (name : String) :
    (s.receive name).2.Kept key past hand n := by
  unfold Session.receive
  repeat' split
  all_goals first | exact h | exact h.frame _ _ _ _

theorem inspect (h : s.Kept key past hand n) (name : String) :
    (s.inspect name).2.Kept key past hand n := by
  unfold Session.inspect
  split <;> exact h

theorem deliver (h : s.Kept key past hand n) (name : String) (values : List Payload) :
    (s.deliver name values).2.Kept key past hand n := by
  unfold Session.deliver
  split
  next => exact h
  next => exact h.frame _ _ _ _

theorem sendOn (h : s.Kept key past hand n) (name : String) (value : Payload) :
    (s.sendOn name value).2.Kept key past hand n := by
  unfold Session.sendOn
  repeat' split
  all_goals first | exact h | exact h.frame _ _ _ _

theorem receiveOn (h : s.Kept key past hand n) (name : String) :
    (s.receiveOn name).2.Kept key past hand n := by
  unfold Session.receiveOn
  repeat' split
  all_goals first | exact h | exact h.frame _ _ _ _

theorem dropSender (h : s.Kept key past hand n) (name : String) :
    (s.dropSender name).2.Kept key past hand n := by
  unfold Session.dropSender
  split
  next => exact h
  next => exact h.frame _ _ _ _

theorem dropReceiver (h : s.Kept key past hand n) (name : String) :
    (s.dropReceiver name).2.Kept key past hand n := by
  unfold Session.dropReceiver
  split
  next => exact h
  next => exact h.frame _ _ _ _

/-! ## Channels and their records -/

theorem create (h : s.Kept key past hand n) (name : String) (capacity : Nat) :
    (s.create key name capacity).2.Kept key past hand n := by
  unfold Session.create
  split
  next => exact h
  next capacity _ =>
    generalize hrecord : Record.create capacity (s.books.ledger key) = created
    obtain ⟨record, l⟩ := created
    have hfresh : ({ s with books := s.books.update key l, log := s.log ++ [record.creation] } :
        Session).Kept key past (⟨key, record⟩ :: hand) n := by
      have htally := h.tally.create capacity
      rw [hrecord] at htally
      exact h.book htally (List.forall_mem_cons.mpr ⟨rfl, h.filed⟩)
    have hput := (put_whole (w := ⟨s.channels.size, ⟨key, record⟩⟩) hfresh name).frame
      (s.channels.push (.ofCapacity capacity)) s.tasks s.senders s.receivers
    simp only
    cases hfind : s.wholes.find? name with
    | none =>
      rw [hfind] at hput
      exact hput
    | some old =>
      rw [hfind] at hput
      exact hput.dropWhole

theorem dispose (h : s.Kept key past hand n) (name : String) :
    (s.dispose name).2.Kept key past hand n := by
  unfold Session.dispose
  split
  next => exact h
  next w hfind =>
    have htaken := ((h.take_whole hfind).frame ((s.channels.modify w.channel .closeSender).modify
      w.channel .closeReceiver) s.tasks s.senders s.receivers)
    simp only
    split
    next f books hdispose =>
      obtain ⟨rfl, hdisposed⟩ := htaken.disposeFiled hdispose
      exact hdisposed.forget rfl
    next => exact htaken.dropFiled

theorem drop (h : s.Kept key past hand n) (name : String) :
    (s.drop name).2.Kept key past hand n := by
  unfold Session.drop
  split
  next => exact h
  next w hfind => exact (h.take_whole hfind).dropWhole

theorem putSender (h : s.Kept key past hand n) (name : String) (channel : Nat) :
    (s.putSender name channel).Kept key past hand n := by
  unfold Session.putSender
  simp only
  split <;> exact h.frame _ _ _ _

theorem putReceiver (h : s.Kept key past hand n) (name : String) (channel : Nat) :
    (s.putReceiver name channel).Kept key past hand n := by
  unfold Session.putReceiver
  simp only
  split <;> exact h.frame _ _ _ _

/-- A record in hand is put under a name. -/
theorem putRecord {f : Filed String} (h : s.Kept key past (f :: hand) n) (name : String) :
    (s.putRecord name f).Kept key past hand n := by
  have hput := h.put_record name
  unfold Session.putRecord
  simp only
  cases hfind : s.records.find? name with
  | none =>
    rw [hfind] at hput
    exact hput
  | some old =>
    rw [hfind] at hput
    exact hput.dropFiled

theorem split (h : s.Kept key past hand n) (name : String) :
    (s.split name).2.Kept key past hand n := by
  unfold Session.split
  split
  next => exact h
  next w hfind =>
    exact (((h.take_whole hfind).putSender _ _).putReceiver _ _).putRecord _

theorem inspectRecord (h : s.Kept key past hand n) (name : String) :
    (s.inspectRecord name).2.Kept key past hand n := by
  unfold Session.inspectRecord
  split <;> exact h

theorem dropRecord (h : s.Kept key past hand n) (name : String) :
    (s.dropRecord name).2.Kept key past hand n := by
  unfold Session.dropRecord
  split
  next => exact h
  next f hfind => exact (h.take_record hfind).dropFiled

theorem disposeRecord (h : s.Kept key past hand n) (name : String) :
    (s.disposeRecord name).2.Kept key past hand n := by
  unfold Session.disposeRecord
  split
  next => exact h
  next f hfind =>
    split
    next f' books hdispose =>
      obtain ⟨rfl, hdisposed⟩ := (h.take_record hfind).disposeFiled hdispose
      exact hdisposed.restore_record h.records rfl
    next => exact h

/-! ## Sets of records -/

theorem collect (h : s.Kept key past hand n) (set name : String) :
    (s.collect set name).2.Kept key past hand n := by
  unfold Session.collect
  split
  next => exact h
  next f hfind => exact extend_set [f] (h.take_record hfind) set

theorem inspectSet (h : s.Kept key past hand n) (set : String) :
    (s.inspectSet set).2.Kept key past hand n := by
  have hextended := extend_set [] h set
  rw [List.append_nil] at hextended
  exact hextended

theorem disposeSet (h : s.Kept key past hand n) (set : String) :
    (s.disposeSet set).2.Kept key past hand n := by
  unfold Session.disposeSet
  split
  next => exact h
  next fs hfind =>
    exact (h.take_set hfind).disposeAll.restore_set h.sets rfl

theorem discardSet (h : s.Kept key past hand n) (set : String) :
    (s.discardSet set).2.Kept key past hand n := by
  unfold Session.discardSet
  split
  next => exact h
  next fs hfind => exact (h.take_set hfind).dropSet

/-! ## Crews -/

theorem hire (h : s.Kept key past hand n) (name : String) (o : PipelineOptions) :
    (s.hire key name o).2.Kept key past hand n := by
  unfold Session.hire
  split
  next => exact h
  next tuning _ =>
    simp only
    split
    next hfind => exact h.put_crew name _ rfl (by rw [hfind]; rfl)
    next old hfind =>
      split
      next =>
        have hreplaced : ({ s with crews := s.crews.put name { tuning, ledger := key } } :
            Session).Kept key past hand (n + old.handles.length) :=
          h.put_crew name _ rfl (by rw [hfind]; rfl)
        exact hreplaced.dropCrew (h.hired old (Directory.mem_of_find? hfind))
      next => exact h

/-- A thread is started, or the channel ends that it was to take over are dropped. -/
theorem enlist {crew : Crew} (h : s.Kept key past hand n)
    (hfind : s.crews.find? name = some crew) (task : Task) (seen : Nat → List Observation) :
    (s.enlist host name crew task seen).2.Kept key past hand n := by
  have hkey := h.hired crew (Directory.mem_of_find? hfind)
  have hlost : ((task.source.map ((task.target.map s.closeSender).getD s).closeReceiver).getD
      ((task.target.map s.closeSender).getD s)).Kept key past hand n := by
    cases task.source <;> cases task.target <;> exact h.frame _ _ _ _
  unfold Session.enlist
  simp only
  split
  next =>
    subst hkey
    have hsum : n + 1 + ((s.crews.find? name).elim 0 fun old => old.handles.length) =
        n + (crew.handles ++ [Handle.mk task.stage.name s.tasks.size]).length := by
      rw [hfind, List.length_append, Nat.add_right_comm]
      rfl
    have hput := (h.started task.stage.name).put_crew name
      { crew with handles := crew.handles ++ [Handle.mk task.stage.name s.tasks.size] } rfl hsum
    exact hput.frame _ _ _ _
  next => exact hlost
  next => exact hlost

theorem spawn (h : s.Kept key past hand n) (name stage : String) (body : ThreadBody) :
    (s.spawn host name stage body).2.Kept key past hand n := by
  unfold Session.spawn
  split
  next => exact h
  next crew hfind =>
    simp only
    split
    next => exact h.enlist hfind _ _
    next => exact h.enlist hfind _ _
    next channel =>
      split
      next => exact h
      next =>
        exact (h.frame s.channels s.tasks s.senders (s.receivers.erase channel)).enlist hfind _ _

theorem spawnStage (h : s.Kept key past hand n) (name stage : String) (f : Function)
    (source target : String) (index : Nat) :
    (s.spawnStage host name stage f source target index).2.Kept key past hand n := by
  unfold Session.spawnStage
  split
  next crew _ _ hfind =>
    exact (h.frame s.channels s.tasks (s.senders.erase target)
      (s.receivers.erase source)).enlist hfind _ _
  next => exact h

theorem join (h : s.Kept key past hand n) (name : String) :
    (s.join name).2.Kept key past hand n := by
  unfold Session.join
  split
  next => exact h
  next crew hfind =>
    split
    next =>
      have hkey := h.hired crew (Directory.mem_of_find? hfind)
      have hemptied : ({ s with crews := s.crews.put name { crew with handles := [] } } :
          Session).Kept key past hand (n + crew.handles.length) :=
        h.put_crew name _ hkey (by rw [hfind]; rfl)
      subst hkey
      exact hemptied.joinAll s.panicked
    next => exact h

theorem dismiss (h : s.Kept key past hand n) (name : String) :
    (s.dismiss name).2.Kept key past hand n := by
  unfold Session.dismiss
  split
  next => exact h
  next crew hfind =>
    split
    next =>
      exact (h.take_crew hfind).dropCrew (h.hired crew (Directory.mem_of_find? hfind))
    next => exact h

/-! ## Runs -/

/-- A task that runs on the thread of the session tells of nothing but itself. -/
theorem work (fuel : Nat) (t : Task) (h : s.Kept key past hand n) :
    (s.work fuel t).2.Kept key past hand n := by
  induction fuel generalizing t s with
  | zero => exact h
  | succ fuel ih =>
    rw [Session.work]
    split
    next t' channels event _ =>
      refine ih t' ((h.frame channels s.tasks s.senders s.receivers).note fun e he => ?_)
      obtain ⟨note, -, rfl⟩ := Option.map_eq_some_iff.mp (Option.mem_toList.mp he)
      exact ⟨rfl, rfl⟩
    next => exact h

theorem runStage (h : s.Kept key past hand n) (stage : String) (f : Function)
    (source target : String) (index : Nat) :
    (s.runStage stage f source target index).2.Kept key past hand n := by
  unfold Session.runStage
  split
  next sourceKey targetKey _ _ =>
    have htaken := h.frame s.channels s.tasks (s.senders.erase target) (s.receivers.erase source)
    simp only
    repeat' split
    all_goals first | exact h | exact work _ _ htaken
  next => exact h

theorem run (h : s.Kept key past hand n) (stages : List (String × Function)) (input : Payload)
    (o : PipelineOptions) : (s.run host key stages input o).2.Kept key past hand n := by
  unfold Session.run
  split
  next => exact h
  next p _ => exact h.book (h.tally.run p input (host p.tuning)) h.filed

/-! ## Actions -/

/-- **Every action keeps the tally.** -/
theorem perform (h : s.Kept key past hand n) (a : Action) :
    (s.perform host key a).2.Kept key past hand n := by
  cases a with
  | create channel capacity => exact h.create channel capacity
  | send channel value => exact h.send channel value
  | receive channel => exact h.receive channel
  | inspect channel => exact h.inspect channel
  | deliver channel values => exact h.deliver channel values
  | dispose channel => exact h.dispose channel
  | drop channel => exact h.drop channel
  | split channel => exact h.split channel
  | sendOn channel value => exact h.sendOn channel value
  | receiveOn channel => exact h.receiveOn channel
  | dropSender channel => exact h.dropSender channel
  | dropReceiver channel => exact h.dropReceiver channel
  | inspectRecord channel => exact h.inspectRecord channel
  | disposeRecord channel => exact h.disposeRecord channel
  | dropRecord channel => exact h.dropRecord channel
  | collect set channel => exact h.collect set channel
  | inspectSet set => exact h.inspectSet set
  | disposeSet set => exact h.disposeSet set
  | dropSet set => exact h.discardSet set
  | hire crew options => exact h.hire crew options
  | spawn crew stage body => exact h.spawn crew stage body
  | spawnStage crew stage f source target index =>
    exact h.spawnStage crew stage f source target index
  | runStage stage f source target index => exact h.runStage stage f source target index
  | join crew => exact h.join crew
  | dismiss crew => exact h.dismiss crew
  | run stages input options => exact h.run stages input options

end Relay.Session.Kept
