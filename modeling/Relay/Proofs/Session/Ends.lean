import Relay.Proofs.Channel
import Relay.Proofs.Session.History

/-!
# Who holds the ends of a channel

The ends of a channel are held by the session, under a name or in a thread (`Session.Uses`), or the
channel has both of its ends and nobody else holds one (`Session.Apart`). This stays so, whatever is
done with a session (`apart_after`).

What is done with ends that are held, or in hand, leaves all other channels as they are (`Within`);
`Apart.perform` goes through the actions.
-/

namespace Relay

/-- A thread keeps its channels, and leaves all others as they are. -/
theorem Task.of_step {t t' : Task} {channels channels' : Array (Channel Payload)}
    {note : Option StageNote} (h : t.step channels = some (t', channels', note)) :
    t'.source = t.source ∧ t'.target = t.target ∧ channels'.size = channels.size ∧
      ∀ k, t.source ≠ some k → t.target ≠ some k → channels'[k]? = channels[k]? := by
  rw [step] at h
  split at h
  · simp only [Option.bind_eq_bind, Option.bind_eq_some_iff, Option.pure_def,
      Option.some.injEq] at h
    obtain ⟨key, hsource, c, -, ⟨worker, c', note'⟩, -, heq⟩ := h
    cases heq
    refine ⟨rfl, rfl, Array.size_setIfInBounds .., fun k hk _ => ?_⟩
    exact Array.getElem?_setIfInBounds_ne fun heq => hk (hsource.trans (congrArg some heq))
  · cases h
    exact ⟨rfl, rfl, rfl, fun _ _ _ => rfl⟩
  · simp only [Option.bind_eq_bind, Option.bind_eq_some_iff, Option.pure_def,
      Option.some.injEq] at h
    obtain ⟨key, htarget, c, -, ⟨worker, c', note'⟩, -, heq⟩ := h
    cases heq
    refine ⟨rfl, rfl, Array.size_setIfInBounds .., fun k _ hk => ?_⟩
    exact Array.getElem?_setIfInBounds_ne fun heq => hk (htarget.trans (congrArg some heq))
  · cases h
    refine ⟨rfl, rfl, ?_, fun k hs ht => ?_⟩
    · cases t.target <;> cases t.source <;> simp
    · cases htarget : t.target <;> cases hsource : t.source <;>
        simp_all [Array.getElem?_modify]
  · cases h

namespace Session

/-- Whether an end of a channel is held by the session or by one of its threads. -/
def Uses (s : Session) (k : Nat) : Prop :=
  k ∈ s.senders.objects ∨ k ∈ s.receivers.objects ∨
    ∃ t ∈ s.tasks, t.source = some k ∨ t.target = some k

/-- Every channel that was not taken apart has both of its ends, which nobody holds. The ends of the
channels `free` are in hand. -/
structure Apart (free : List Nat) (s : Session) : Prop where
  bounded : ∀ k, s.Uses k ∨ k ∈ free → k < s.channels.size
  intact : ∀ w ∈ s.wholes.objects,
    ∃ c, s.channels[w.channel]? = some c ∧ c.sender = true ∧ c.receiver = true
  alone : ∀ k ∈ free ++ s.wholes.objects.map Whole.channel, ¬ s.Uses k
  distinct : (free ++ s.wholes.objects.map Whole.channel).Nodup
  ascending : s.wholes.Ascending

/-- What is left after something was done with ends that were held or in hand. -/
structure Within (free : List Nat) (s s' : Session) : Prop where
  wholes : s'.wholes = s.wholes
  size : s'.channels.size = s.channels.size
  same : ∀ k, ¬ s.Uses k → k ∉ free → s'.channels[k]? = s.channels[k]?
  uses : ∀ k, s'.Uses k → s.Uses k ∨ k ∈ free

variable {free free' : List Nat} {s s' s'' : Session} {k : Nat} {key name : String} {host : Host}

/-- The ends in hand are not those of a channel that was not taken apart. -/
theorem Apart.not_mem_free (h : Apart free s) (hk : k ∈ s.wholes.objects.map Whole.channel) :
    k ∉ free := fun hfree =>
  (List.nodup_append.mp h.distinct).2.2 k hfree k hk rfl

theorem Apart.within (h : Apart free s) (hw : Within free s s') : Apart [] s' where
  bounded k hk := by
    rw [hw.size]
    exact h.bounded k (hw.uses k (hk.resolve_right List.not_mem_nil))
  intact w hmem := by
    rw [hw.wholes] at hmem
    have hchannel : w.channel ∈ s.wholes.objects.map Whole.channel := List.mem_map_of_mem hmem
    rw [hw.same _ (h.alone _ (List.mem_append_right _ hchannel)) (h.not_mem_free hchannel)]
    exact h.intact w hmem
  alone k hk huses := by
    rw [List.nil_append, hw.wholes] at hk
    rcases hw.uses k huses with huses | hfree
    · exact h.alone k (List.mem_append_right _ hk) huses
    · exact h.not_mem_free hk hfree
  distinct := by
    rw [List.nil_append, hw.wholes]
    exact (List.nodup_append.mp h.distinct).2.1
  ascending := hw.wholes ▸ h.ascending

/-! ## Working on ends that are held -/

namespace Within

theorem refl (free : List Nat) (s : Session) : Within free s s :=
  ⟨rfl, rfl, fun _ _ _ => rfl, fun _ => .inl⟩

theorem trans (h : Within free s s') (h' : Within free s' s'') : Within free s s'' where
  wholes := h'.wholes.trans h.wholes
  size := h'.size.trans h.size
  same k hk hfree :=
    (h'.same k (fun hk' => (h.uses k hk').elim hk hfree) hfree).trans (h.same k hk hfree)
  uses k hk := (h'.uses k hk).elim (h.uses k) .inr

/-- Ends in hand may have been held before. -/
theorem of_uses (h : Within free s s') (hfree : ∀ k ∈ free, s.Uses k ∨ k ∈ free') :
    Within free' s s' where
  wholes := h.wholes
  size := h.size
  same k hk hfree' := h.same k hk fun hm => (hfree k hm).elim hk hfree'
  uses k hk := (h.uses k hk).elim .inl (hfree k)

/-- Books, records, sets, crews and the log have no part in it. -/
theorem of_eq (hwholes : s'.wholes = s.wholes) (hchannels : s'.channels = s.channels)
    (hsenders : s'.senders = s.senders) (hreceivers : s'.receivers = s.receivers)
    (htasks : s'.tasks = s.tasks) : Within free s s' where
  wholes := hwholes
  size := by rw [hchannels]
  same _ _ _ := by rw [hchannels]
  uses k hk := by
    rw [Uses, hsenders, hreceivers, htasks] at hk
    exact .inl hk

theorem modify (f : Channel Payload → Channel Payload) (hk : s.Uses k ∨ k ∈ free) :
    Within free s { s with channels := s.channels.modify k f } where
  wholes := rfl
  size := Array.size_modify ..
  same j hj hfree := by
    have hne : k ≠ j := fun heq => heq ▸ hk |>.elim hj hfree
    exact (Array.getElem?_modify ..).trans (if_neg hne)
  uses _ := .inl

theorem setChannel (c : Channel Payload) (hk : s.Uses k ∨ k ∈ free) :
    Within free s (s.setChannel k c) where
  wholes := rfl
  size := Array.size_setIfInBounds ..
  same j hj hfree := by
    have hne : k ≠ j := fun heq => heq ▸ hk |>.elim hj hfree
    exact Array.getElem?_setIfInBounds_ne hne
  uses _ := .inl

theorem set_senders {d : Directory Nat} (hd : ∀ k ∈ d.objects, s.Uses k ∨ k ∈ free) :
    Within free s { s with senders := d } where
  wholes := rfl
  size := rfl
  same _ _ _ := rfl
  uses k hk := hk.elim (hd k) fun hk => .inl (.inr hk)

theorem set_receivers {d : Directory Nat} (hd : ∀ k ∈ d.objects, s.Uses k ∨ k ∈ free) :
    Within free s { s with receivers := d } where
  wholes := rfl
  size := rfl
  same _ _ _ := rfl
  uses k hk := by
    rcases hk with hk | hk | hk
    · exact .inl (.inl hk)
    · exact hd k hk
    · exact .inl (.inr (.inr hk))

theorem push {t : Task}
    (ht : ∀ k, t.source = some k ∨ t.target = some k → s.Uses k ∨ k ∈ free) :
    Within free s { s with tasks := s.tasks.push t } where
  wholes := rfl
  size := rfl
  same _ _ _ := rfl
  uses k hk := by
    rcases hk with hk | hk | ⟨t', ht', hends⟩
    · exact .inl (.inl hk)
    · exact .inl (.inr (.inl hk))
    · rcases Array.mem_push.mp ht' with ht' | rfl
      · exact .inl (.inr (.inr ⟨t', ht', hends⟩))
      · exact ht k hends

theorem closeSender (hk : s.Uses k ∨ k ∈ free) : Within free s (s.closeSender k) := modify _ hk

theorem closeReceiver (hk : s.Uses k ∨ k ∈ free) : Within free s (s.closeReceiver k) := modify _ hk

theorem dropWhole {w : Whole} (hw : w.channel ∈ free) : Within free s (s.dropWhole w) :=
  ((closeSender (.inr hw)).trans (closeReceiver (.inr hw))).trans (of_eq rfl rfl rfl rfl rfl)

/-- A thread goes on with its own ends. -/
theorem threadStep (h : s.threadStep = some s') : Within free s s' := by
  obtain ⟨i, t, t', channels, note, ht, hstep, rfl⟩ := of_threadStep h
  obtain ⟨hsource, htarget, hsize, hsame⟩ := Task.of_step hstep
  have hmem : t ∈ s.tasks := Array.mem_of_getElem? ht
  have huses : ∀ k, t.source = some k ∨ t.target = some k → s.Uses k := fun k hk =>
    .inr (.inr ⟨t, hmem, hk⟩)
  refine ⟨rfl, hsize, fun k hk _ => ?_, fun k hk => .inl ?_⟩
  · exact hsame k (fun hs => hk (huses k (.inl hs))) fun ht => hk (huses k (.inr ht))
  · rcases hk with hk | hk | ⟨u, hu, hends⟩
    · exact .inl hk
    · exact .inr (.inl hk)
    · rcases Array.mem_or_eq_of_mem_setIfInBounds hu with hu | rfl
      · exact .inr (.inr ⟨u, hu, hends⟩)
      · rw [hsource, htarget] at hends
        exact huses k hends

theorem settle (s : Session) : Within free s s.settle :=
  settle_induction (P := Within free s) (fun _ _ hstep h => h.trans (threadStep hstep))
    (refl free s)

/-! ### Actions -/

theorem sendOn (s : Session) (name : String) (value : Payload) :
    Within free s (s.sendOn name value).2 := by
  unfold Session.sendOn
  split
  next => exact refl free s
  next k hfind =>
    split
    next => exact setChannel _ (.inl (.inl (Directory.mem_of_find? hfind)))
    all_goals exact refl free s

theorem receiveOn (s : Session) (name : String) : Within free s (s.receiveOn name).2 := by
  unfold Session.receiveOn
  split
  next => exact refl free s
  next k hfind =>
    split
    next => exact setChannel _ (.inl (.inr (.inl (Directory.mem_of_find? hfind))))
    all_goals exact refl free s

theorem erase_sender (s : Session) (name : String) :
    Within free s { s with senders := s.senders.erase name } :=
  set_senders fun _ hk => .inl (.inl (Directory.mem_objects_of_erase hk))

theorem erase_receiver (s : Session) (name : String) :
    Within free s { s with receivers := s.receivers.erase name } :=
  set_receivers fun _ hk => .inl (.inr (.inl (Directory.mem_objects_of_erase hk)))

theorem dropSender (s : Session) (name : String) : Within free s (s.dropSender name).2 := by
  unfold Session.dropSender
  split
  next => exact refl free s
  next k hfind =>
    have hk : s.Uses k := .inl (Directory.mem_of_find? hfind)
    exact (closeSender (.inl hk)).trans (erase_sender (s.closeSender k) name)

theorem dropReceiver (s : Session) (name : String) : Within free s (s.dropReceiver name).2 := by
  unfold Session.dropReceiver
  split
  next => exact refl free s
  next k hfind =>
    have hk : s.Uses k := .inr (.inl (Directory.mem_of_find? hfind))
    exact (closeReceiver (.inl hk)).trans (erase_receiver (s.closeReceiver k) name)

theorem putSender (s : Session) (name : String) (hk : k ∈ free) :
    Within free s (s.putSender name k) := by
  have hput : ∀ s' : Session, s'.senders = s.senders →
      Within free s' { s' with senders := s.senders.put name k } := fun s' heq =>
    set_senders fun j hj => (Directory.mem_objects_put hj).elim (fun h => .inr (h ▸ hk))
      fun h => .inl (.inl (heq ▸ h))
  unfold Session.putSender
  simp only
  split
  next old hfind =>
    -- The end that had the name is closed while it still has it.
    have hold : s.Uses old := .inl (Directory.mem_of_find? hfind)
    exact (closeSender (.inl hold)).trans (hput (s.closeSender old) rfl)
  next => exact hput s rfl

theorem putReceiver (s : Session) (name : String) (hk : k ∈ free) :
    Within free s (s.putReceiver name k) := by
  have hput : ∀ s' : Session, s'.receivers = s.receivers →
      Within free s' { s' with receivers := s.receivers.put name k } := fun s' heq =>
    set_receivers fun j hj => (Directory.mem_objects_put hj).elim (fun h => .inr (h ▸ hk))
      fun h => .inl (.inr (.inl (heq ▸ h)))
  unfold Session.putReceiver
  simp only
  split
  next old hfind =>
    have hold : s.Uses old := .inr (.inl (Directory.mem_of_find? hfind))
    exact (closeReceiver (.inl hold)).trans (hput (s.closeReceiver old) rfl)
  next => exact hput s rfl

theorem putRecord (s : Session) (name : String) (f : Filed String) :
    Within free s (s.putRecord name f) := by
  unfold Session.putRecord
  simp only
  split <;> exact of_eq rfl rfl rfl rfl rfl

/-- A thread that is started takes over the ends that are in hand. -/
theorem enlist (s : Session) (name : String) (crew : Crew) {t : Task}
    (ht : ∀ k, t.source = some k ∨ t.target = some k → k ∈ free) (seen : Nat → List Observation) :
    Within free s (s.enlist host name crew t seen).2 := by
  have hlost : Within free s
      ((t.source.map ((t.target.map s.closeSender).getD s).closeReceiver).getD
        ((t.target.map s.closeSender).getD s)) := by
    have hfirst : Within free s ((t.target.map s.closeSender).getD s) := by
      cases htarget : t.target with
      | none => exact refl free s
      | some k => exact closeSender (.inr (ht k (.inr htarget)))
    refine hfirst.trans ?_
    cases hsource : t.source with
    | none => exact refl free _
    | some k => exact closeReceiver (.inr (ht k (.inl hsource)))
  unfold Session.enlist
  simp only
  split
  next =>
    have hpushed : Within free s { s with tasks := s.tasks.push t } :=
      push fun k hk => .inr (ht k hk)
    exact hpushed.trans (of_eq rfl rfl rfl rfl rfl)
  next => exact hlost
  next => exact hlost

theorem spawn (s : Session) (name stage : String) (body : ThreadBody) :
    Within [] s (s.spawn host name stage body).2 := by
  have halone : ∀ {t : Task}, t.source = none → t.target = none →
      ∀ k, t.source = some k ∨ t.target = some k → k ∈ ([] : List Nat) :=
    fun hsource htarget k hk => by
      rw [hsource, htarget] at hk
      exact hk.elim nofun nofun
  unfold Session.spawn
  split
  next => exact refl _ s
  next crew _ =>
    simp only
    split
    next => exact enlist s name crew (halone rfl rfl) _
    next => exact enlist s name crew (halone rfl rfl) _
    next channel =>
      split
      next => exact refl _ s
      next k hfind =>
        have htaken : Within [k] s { s with receivers := s.receivers.erase channel } :=
          erase_receiver s channel
        have hk : s.Uses k := .inr (.inl (Directory.mem_of_find? hfind))
        refine (htaken.trans (enlist _ name crew (fun j hj => ?_) _)).of_uses fun j hj =>
          .inl (List.mem_singleton.mp hj ▸ hk)
        exact List.mem_singleton.mpr (Option.some.inj (hj.resolve_right nofun)).symm

/-- The ends that were under a name are taken in hand. -/
theorem take_ends {source target : String} {sourceKey targetKey : Nat}
    (hsource : s.receivers.find? source = some sourceKey)
    (htarget : s.senders.find? target = some targetKey)
    (h : Within [sourceKey, targetKey] { s with
      receivers := s.receivers.erase source
      senders := s.senders.erase target } s') : Within [] s s' := by
  have htaken : Within [sourceKey, targetKey] s { s with
      receivers := s.receivers.erase source
      senders := s.senders.erase target } :=
    (erase_receiver s source).trans (erase_sender _ target)
  refine (htaken.trans h).of_uses fun k hk => .inl ?_
  rcases List.mem_cons.mp hk with rfl | hk
  · exact .inr (.inl (Directory.mem_of_find? hsource))
  · exact .inl (List.mem_singleton.mp hk ▸ Directory.mem_of_find? htarget)

theorem mem_ends {t : Task} {a b : Nat} (hsource : t.source = some a)
    (htarget : t.target = some b) : ∀ k, t.source = some k ∨ t.target = some k → k ∈ [a, b] := by
  rw [hsource, htarget]
  rintro k (hk | hk)
  · exact List.mem_cons.mpr (.inl (Option.some.inj hk).symm)
  · exact List.mem_cons_of_mem _ (List.mem_singleton.mpr (Option.some.inj hk).symm)

theorem spawnStage (s : Session) (name stage : String) (f : Function) (source target : String)
    (index : Nat) : Within [] s (s.spawnStage host name stage f source target index).2 := by
  unfold Session.spawnStage
  split
  next crew hsource htarget _ =>
    exact take_ends hsource htarget (enlist _ name crew (mem_ends rfl rfl) _)
  next => exact refl _ s

/-- A task that runs on the thread of the session goes on with the ends that are in hand. -/
theorem work (fuel : Nat) {t : Task}
    (ht : ∀ k, t.source = some k ∨ t.target = some k → k ∈ free) (s : Session) :
    Within free s (s.work fuel t).2 := by
  induction fuel generalizing t s with
  | zero => exact refl free s
  | succ fuel ih =>
    rw [Session.work]
    split
    next t' channels note hstep =>
      obtain ⟨hsource, htarget, hsize, hsame⟩ := Task.of_step hstep
      have hstepped : Within free s { s with channels } :=
        ⟨rfl, hsize, fun k _ hk => hsame k (fun hs => hk (ht k (.inl hs)))
          fun hs => hk (ht k (.inr hs)), fun _ => .inl⟩
      have hnoted : Within free { s with channels } (({ s with channels } : Session).note
          (note.map (Event.inStage t.index t.stage.name)).toList) := of_eq rfl rfl rfl rfl rfl
      exact (hstepped.trans hnoted).trans (ih (by rwa [hsource, htarget]) _)
    next => exact refl free s

theorem runStage (s : Session) (stage : String) (f : Function) (source target : String)
    (index : Nat) : Within [] s (s.runStage stage f source target index).2 := by
  unfold Session.runStage
  split
  next hsource htarget =>
    simp only
    repeat' split
    all_goals first
      | exact refl _ s
      | exact take_ends hsource htarget (work _ (mem_ends rfl rfl) _)
  next => exact refl _ s

end Within

/-! ## Channels with both of their ends -/

namespace Apart

theorem take_whole {w : Whole} (h : Apart free s) (hfind : s.wholes.find? name = some w) :
    Apart (w.channel :: free) { s with wholes := s.wholes.erase name } := by
  have hperm := h.ascending.perm_erase name
  rw [hfind] at hperm
  have hw : w ∈ s.wholes.objects := Directory.mem_of_find? hfind
  have hkeys : (free ++ s.wholes.objects.map Whole.channel).Perm
      (w.channel :: free ++ (s.wholes.erase name).objects.map Whole.channel) :=
    ((hperm.map Whole.channel).append_left free).trans List.perm_middle
  constructor
  · rintro k (huses | hmem)
    · exact h.bounded k (.inl huses)
    · rcases List.mem_cons.mp hmem with rfl | hfree
      · obtain ⟨c, hc, -⟩ := h.intact w hw
        exact (Array.getElem?_eq_some_iff.mp hc).1
      · exact h.bounded k (.inr hfree)
  · exact fun w' hw' => h.intact w' (Directory.mem_objects_of_erase hw')
  · exact fun k hk => h.alone k (hkeys.mem_iff.mpr hk)
  · exact hkeys.nodup_iff.mp h.distinct
  · exact h.ascending.erase name

/-- A new channel takes the place of the one that had its name. -/
theorem push_whole (h : Apart free s) (name : String) (filed : Filed String) (capacity : Capacity) :
    Apart ((s.wholes.find? name).toList.map Whole.channel ++ free) { s with
      channels := s.channels.push (.ofCapacity capacity)
      wholes := s.wholes.put name ⟨s.channels.size, filed⟩ } := by
  have hperm := h.ascending.perm_put name ⟨s.channels.size, filed⟩
  have hlt : ∀ k ∈ free ++ s.wholes.objects.map Whole.channel, k < s.channels.size := fun k hk => by
    rcases List.mem_append.mp hk with hfree | hk
    · exact h.bounded k (.inr hfree)
    · obtain ⟨w, hw, rfl⟩ := List.mem_map.mp hk
      obtain ⟨c, hc, -⟩ := h.intact w hw
      exact (Array.getElem?_eq_some_iff.mp hc).1
  have hkeys : (s.channels.size :: (free ++ s.wholes.objects.map Whole.channel)).Perm
      ((s.wholes.find? name).toList.map Whole.channel ++ free ++
        (s.wholes.put name ⟨s.channels.size, filed⟩).objects.map Whole.channel) := by
    have hmap := (hperm.map Whole.channel).append_left free
    rw [List.map_cons, List.map_append] at hmap
    refine List.perm_middle.symm.trans (hmap.trans ?_)
    rw [← List.append_assoc]
    exact List.perm_append_comm.append_right _
  have hfresh : ¬ s.Uses s.channels.size := fun huses =>
    Nat.lt_irrefl _ (h.bounded _ (.inl huses))
  constructor
  · rintro k hk
    have hold : k < s.channels.size := by
      rcases hk with huses | hmem
      · exact h.bounded k (.inl huses)
      · refine hlt k ?_
        rcases List.mem_append.mp hmem with hmem | hfree
        · obtain ⟨w, hw, rfl⟩ := List.mem_map.mp hmem
          have hw := Directory.mem_of_find? (Option.mem_toList.mp hw)
          exact List.mem_append_right _ (List.mem_map_of_mem hw)
        · exact List.mem_append_left _ hfree
    rw [Array.size_push]
    exact Nat.lt_succ_of_lt hold
  · intro w hw
    rcases Directory.mem_objects_put hw with rfl | hw
    · exact ⟨.ofCapacity capacity, Array.getElem?_push_size, rfl, rfl⟩
    · obtain ⟨c, hc, hends⟩ := h.intact w hw
      have hlt := (Array.getElem?_eq_some_iff.mp hc).1
      refine ⟨c, ?_, hends⟩
      rw [← hc]
      exact (Array.getElem?_push ..).trans (if_neg (Nat.ne_of_lt hlt))
  · intro k hk huses
    rcases List.mem_cons.mp (hkeys.mem_iff.mpr hk) with rfl | hk
    · exact hfresh huses
    · exact h.alone k hk huses
  · refine hkeys.nodup_iff.mp (List.nodup_cons.mpr ⟨fun hk => ?_, h.distinct⟩)
    exact Nat.lt_irrefl _ (hlt _ hk)
  · exact h.ascending.put name _

/-- A channel that is used through both of its ends keeps them. -/
theorem setChannel {c : Channel Payload} (h : Apart free s) (k : Nat)
    (hends : c.sender = true ∧ c.receiver = true) : Apart free (s.setChannel k c) := by
  refine { h with bounded := fun j hj => ?_, intact := fun w hw => ?_ }
  · exact Nat.lt_of_lt_of_eq (h.bounded j hj) Array.size_setIfInBounds.symm
  · obtain ⟨c', hc', hends'⟩ := h.intact w hw
    by_cases hk : k = w.channel
    · have hlt := (Array.getElem?_eq_some_iff.mp hc').1
      refine ⟨c, ?_, hends⟩
      rw [← hk] at hlt ⊢
      exact Array.getElem?_setIfInBounds_self_of_lt hlt
    · exact ⟨c', (Array.getElem?_setIfInBounds_ne hk).trans hc', hends'⟩

/-- The channel of a name has both of its ends. -/
theorem channel_ends {w : Whole} (h : Apart free s) (hfind : s.wholes.find? name = some w) :
    (s.channel w.channel).sender = true ∧ (s.channel w.channel).receiver = true := by
  obtain ⟨c, hc, hends⟩ := h.intact w (Directory.mem_of_find? hfind)
  rw [Session.channel, hc]
  exact hends

/-! ### Actions -/

theorem create (h : Apart [] s) (key name : String) (capacity : Nat) :
    Apart [] (s.create key name capacity).2 := by
  unfold Session.create
  split
  next => exact h
  next capacity _ =>
    simp only
    have hpushed :=
      h.push_whole name ⟨key, (Record.create capacity (s.books.ledger key)).1⟩ capacity
    cases hfind : s.wholes.find? name with
    | none => exact hpushed.within (.of_eq rfl rfl rfl rfl rfl)
    | some old =>
      rw [hfind] at hpushed
      have hold : old.channel ∈ (some old).toList.map Whole.channel ++ [] := List.mem_cons_self
      refine hpushed.within (.trans ?_ (.dropWhole hold))
      exact .of_eq rfl rfl rfl rfl rfl

theorem send (h : Apart [] s) (name : String) (value : Payload) :
    Apart [] (s.send name value).2 := by
  unfold Session.send
  split
  next => exact h
  next w hfind =>
    split
    next c hsend =>
      obtain ⟨-, -, rfl⟩ := Channel.of_send_done hsend
      exact h.setChannel _ (h.channel_ends hfind)
    all_goals exact h

theorem receive (h : Apart [] s) (name : String) : Apart [] (s.receive name).2 := by
  unfold Session.receive
  split
  next => exact h
  next w hfind =>
    split
    next p c hreceive =>
      obtain ⟨-, hc⟩ := Channel.of_receive_done hreceive
      rw [hc]
      exact h.setChannel _ (h.channel_ends hfind)
    all_goals exact h

theorem deliver (h : Apart [] s) (name : String) (values : List Payload) :
    Apart [] (s.deliver name values).2 := by
  unfold Session.deliver
  split
  next => exact h
  next w hfind => exact h.setChannel _ (h.channel_ends hfind)

theorem drop (h : Apart [] s) (name : String) : Apart [] (s.drop name).2 := by
  unfold Session.drop
  split
  next => exact h
  next w hfind => exact (h.take_whole hfind).within (.dropWhole List.mem_cons_self)

theorem dispose (h : Apart [] s) (name : String) : Apart [] (s.dispose name).2 := by
  unfold Session.dispose
  split
  next => exact h
  next w hfind =>
    have hw : w.channel ∈ [w.channel] := List.mem_cons_self
    have hclosed : Within [w.channel] { s with wholes := s.wholes.erase name }
        ((({ s with wholes := s.wholes.erase name } : Session).closeSender w.channel).closeReceiver
          w.channel) :=
      .trans (.closeSender (.inr hw)) (.closeReceiver (.inr hw))
    simp only
    split <;> exact (h.take_whole hfind).within (hclosed.trans (.of_eq rfl rfl rfl rfl rfl))

/-- The ends of a channel that is taken apart are held from then on. -/
theorem split (h : Apart [] s) (name : String) : Apart [] (s.split name).2 := by
  unfold Session.split
  split
  next => exact h
  next w hfind =>
    have hw : w.channel ∈ [w.channel] := List.mem_cons_self
    exact (h.take_whole hfind).within
      (((Within.putSender _ name hw).trans (.putReceiver _ name hw)).trans (.putRecord _ name _))

end Apart

/-- **Every action leaves the channels that have both of their ends apart.** -/
theorem Apart.perform (h : Apart [] s) (host : Host) (key : String) (a : Action) :
    Apart [] (s.perform host key a).2 := by
  cases a with
  | create channel capacity => exact h.create key channel capacity
  | send channel value => exact h.send channel value
  | receive channel => exact h.receive channel
  | deliver channel values => exact h.deliver channel values
  | dispose channel => exact h.dispose channel
  | drop channel => exact h.drop channel
  | split channel => exact h.split channel
  | sendOn channel value => exact h.within (.sendOn s channel value)
  | receiveOn channel => exact h.within (.receiveOn s channel)
  | dropSender channel => exact h.within (.dropSender s channel)
  | dropReceiver channel => exact h.within (.dropReceiver s channel)
  | spawn crew stage body => exact h.within (.spawn s crew stage body)
  | spawnStage crew stage f source target index =>
    exact h.within (.spawnStage s crew stage f source target index)
  | runStage stage f source target index =>
    exact h.within (.runStage s stage f source target index)
  | inspect | inspectRecord | disposeRecord | dropRecord | collect | inspectSet | disposeSet
  | dropSet | hire | join | dismiss | run =>
    -- These use no channel.
    refine h.within ?_
    simp only [Session.perform, inspect, inspectRecord, disposeRecord, dropRecord, collect,
      inspectSet, disposeSet, discardSet, hire, join, dismiss, run]
    repeat' split
    all_goals exact .of_eq rfl rfl rfl rfl rfl

theorem Apart.act (h : Apart [] s) (key : String) (a : Action) (host : Host) :
    Apart [] (s.act key a host).2 := by
  have hready : Apart [] (s.ready key) := h.within (.of_eq rfl rfl rfl rfl rfl)
  exact (hready.perform host key a).within (.settle _)

/-- The session after some actions, each with the name of its ledger and with what came of the
threads that it started. -/
def after (script : List (String × Action × Host)) : Session :=
  script.foldl (fun s (key, a, host) => (s.act key a host).2) {}

theorem apart_after (script : List (String × Action × Host)) : Apart [] (after script) := by
  have honwards : ∀ {s : Session}, Apart [] s →
      Apart [] (script.foldl (fun s (key, a, host) => (s.act key a host).2) s) := by
    induction script with
    | nil => exact id
    | cons entry script ih => exact fun h => ih (h.act entry.1 entry.2.1 entry.2.2)
  refine honwards ⟨fun k hk => ?_, nofun, nofun, List.nodup_nil, Directory.ascending_nil⟩
  rcases hk with (hk | hk | ⟨t, ht, -⟩) | hk
  · cases hk
  · cases hk
  · exact absurd ht (Array.not_mem_empty t)
  · cases hk

end Session

end Relay
