import VirtioOsx.CompletionRuns
import VirtioOsx.Interrupts

/-! No interrupt is lost: an entry that the device has returned, a queue that the filter has
masked and a change of configuration each leave a mark that somebody still has to act on. -/
namespace VirtioOsx

open Runs

/-- What a step keeps of a queue, other than a step of a processing call. Entries to process
come from the device alone. -/
structure StepFrame (a : Action) (m m' : Machine) : Prop where
  flags : m'.queue.availableRing.flags = m.queue.availableRing.flags
  requested : m'.queue.interruptsRequested = m.queue.interruptsRequested
  processing : m.processing.isSome = true → m'.processing = m.processing
  log : m'.log = m.log
  returned : (∀ position writtenBytes, a ≠ .complete position writtenBytes) →
    m'.returned = m.returned

theorem MachineInv.submit_frame (inv : MachineInv n lost m) (sound : ¬Corrupting m.queue call)
    (taken : m.submit call = some m') : StepFrame (.submit call) m m' := by
  obtain ⟨free,partition⟩ := inv.partition
  have fits : free.length ≤ m.queue.numEntries := partition.size.symm ▸ partition.fits
  have outcome := buildChain_spec partition.unused fits sound
  obtain ⟨_,⟨head,queue,built,rfl⟩ | ⟨result,queue,failed,rfl⟩⟩ := Machine.submit_cases taken
  · rw [built] at outcome
    obtain ⟨_,_,_,agree⟩ := partition.built outcome
    exact ⟨congrArg _ agree.availableRing,agree.interruptsRequested,fun _ => rfl,rfl,fun _ => rfl⟩
  · rw [failed] at outcome
    obtain ⟨_,_,_,agree,_⟩ := partition.refused outcome
    exact ⟨congrArg _ agree.availableRing,agree.interruptsRequested,fun _ => rfl,rfl,fun _ => rfl⟩

theorem MachineInv.step_frame (inv : MachineInv n lost m) (sound : Sound m a)
    (taken : step a m = some m') (other : a ≠ .advance) : StepFrame a m m' := by
  cases a with
  | submit call => exact inv.submit_frame (sound call rfl) taken
  | publish =>
    rcases Machine.publish_cases taken with ⟨_,_,rfl⟩ | ⟨_,_,rfl⟩ | ⟨_,rfl⟩
    all_goals exact ⟨rfl,rfl,fun _ => rfl,rfl,fun _ => rfl⟩
  | process limit =>
    simp only [step,Machine.process] at taken
    split at taken
    · rename_i idle
      obtain rfl := Option.some.inj taken
      refine ⟨rfl,rfl,?_,rfl,fun _ => rfl⟩
      intro busy
      simp [Option.isSome_iff_ne_none.mp busy] at idle
    · cases taken
  | advance => exact absurd rfl other
  | fetch =>
    obtain ⟨_,_,_,rfl⟩ := Machine.fetch_cases taken
    exact ⟨rfl,rfl,fun _ => rfl,rfl,fun _ => rfl⟩
  | complete position writtenBytes =>
    obtain ⟨_,_,rfl⟩ := Option.map_eq_some_iff.mp taken
    exact ⟨rfl,rfl,fun _ => rfl,rfl,fun never => absurd rfl (never position writtenBytes)⟩
  | suppress | enable | recheck | kick =>
    simp only [step,Machine.suppress,Machine.enable,Machine.recheck,Machine.kick] at taken
    split at taken
    · obtain rfl := Option.some.inj taken
      exact ⟨rfl,rfl,fun _ => rfl,rfl,fun _ => rfl⟩
    · cases taken

def Machine.rechecks (m : Machine) : Prop :=
  ∃ limit total next, m.processing = some ⟨limit, total, .recheck next⟩

/-- What a step of a processing call does to the flags. It unmasks before it reads the used
index for the last time, and returns only from there. -/
structure AdvanceFrame (m m' : Machine) : Prop where
  requested : m'.queue.interruptsRequested = m.queue.interruptsRequested
  flags : m'.queue.availableRing.flags = m.queue.availableRing.flags ∨
    m.queue.interruptsRequested = true ∧ m'.queue.availableRing.flags = 0
  unprocessed : m'.unprocessed ≠ [] → m.unprocessed ≠ []
  rechecks : m'.rechecks → m.queue.interruptsRequested = true → m'.queue.availableRing.flags = 0
  returns : m'.processing = none → m.rechecks ∧ m'.unprocessed = []

theorem releaseChain_frame (neutral : Neutral visit)
    (released : releaseChain visit fuel i q = some q') :
    q'.availableRing = q.availableRing ∧ q'.interruptsRequested = q.interruptsRequested := by
  apply releaseChain_keeps (fun queue => queue.availableRing = q.availableRing ∧
    queue.interruptsRequested = q.interruptsRequested) _ released ⟨rfl,rfl⟩
  rintro j queue ⟨available,requested⟩
  have visited := neutral.agree j queue
  exact ⟨visited.availableRing.trans available,visited.interruptsRequested.trans requested⟩

theorem MachineInv.advance_frame (inv : MachineInv n lost m) (taken : m.advance = some m') :
    AdvanceFrame m m' := by
  have caughtUp := (inv.advance taken).2
  obtain ⟨quiet,⟨limit,total,place⟩,result,busy,moved,rfl⟩ := Machine.advance_cases taken
  have unprocessed : (m.processed ⟨limit,total,place⟩ result).unprocessed ≠ [] →
      m.unprocessed ≠ [] := by
    simp only [Machine.unprocessed,Machine.processed,ne_eq,List.drop_eq_nil_iff,not_le,
      List.length_append]
    omega
  have finished : (m.processed ⟨limit,total,place⟩ result).processing = none →
      (m.processed ⟨limit,total,place⟩ result).unprocessed = [] := by
    intro returned
    rw [Machine.unprocessed,List.drop_eq_nil_iff,caughtUp returned]
  have running (position : ProcessPosition) (same : result.position = some position) :
      (m.processed ⟨limit,total,place⟩ result).processing ≠ none := by
    simp [Machine.processed,same]
  -- most steps neither touch the flags nor come to the last read
  have steady (position : ProcessPosition) (fresh : ∀ next, position ≠ .recheck next)
      (same : result.position = some position)
      (available : result.queue.availableRing = m.queue.availableRing)
      (requested : result.queue.interruptsRequested = m.queue.interruptsRequested) :
      AdvanceFrame m (m.processed ⟨limit,total,place⟩ result) := by
    refine ⟨requested,.inl (congrArg _ available),unprocessed,?_,
      fun returned => absurd returned (running position same)⟩
    rintro ⟨limit',total',next,again⟩
    simp only [Machine.processed,same,Option.map_some,Option.some.injEq,
      ProcessCall.mk.injEq] at again
    exact absurd again.2.2 (fresh next)
  cases place with
  | poll =>
    simp only [processCompletedRequestsInVirtqueue] at moved
    split at moved
    all_goals
      obtain rfl := Option.some.inj moved
      exact steady _ (by simp) rfl rfl rfl
  | unmask next =>
    obtain rfl := Option.some.inj moved
    cases asked : m.queue.interruptsRequested with
    | true =>
      refine ⟨?_,.inr ⟨asked,?_⟩,unprocessed,fun _ _ => ?_,
        fun returned => absurd returned (running _ rfl)⟩
      all_goals simp [Machine.processed,asked]
    | false =>
      refine ⟨?_,.inl ?_,unprocessed,fun _ on => absurd (asked.symm.trans on) (by simp),
        fun returned => absurd returned (running _ rfl)⟩
      all_goals simp [Machine.processed,asked]
  | recheck next =>
    simp only [processCompletedRequestsInVirtqueue] at moved
    split at moved
    · obtain rfl := Option.some.inj moved
      refine ⟨rfl,.inl rfl,unprocessed,?_,fun returned => ⟨⟨limit,total,next,busy⟩,finished returned⟩⟩
      rintro ⟨_,_,_,never⟩
      cases never
    · obtain rfl := Option.some.inj moved
      exact steady _ (by simp) rfl rfl rfl
  | batch current next =>
    simp only [processCompletedRequestsInVirtqueue] at moved
    split at moved
    · obtain ⟨q',released,rfl⟩ := Option.map_eq_some_iff.mp moved
      obtain ⟨available,requested⟩ := releaseChain_frame neutral_clearCompleted released
      exact steady _ (by simp) rfl available requested
    · obtain rfl := Option.some.inj moved
      exact steady _ (by simp) rfl rfl rfl
  | action current next =>
    obtain rfl := Option.some.inj moved
    exact steady _ (by simp) rfl rfl rfl

/-- The filter masks a queue, and the driver unmasks it, whatever else is under way. -/
theorem MachineInv.setAvailableFlags (inv : MachineInv n lost m) (flags : Nat) :
    MachineInv n lost (m.setAvailableFlags flags) := by
  obtain ⟨free,partition⟩ := inv.partition
  have available := inv.available
  exact ⟨inv.accepted,⟨free,partition.congr rfl rfl rfl rfl⟩,
    ⟨available.behind,available.headIndex,available.counter,available.window⟩,inv.used,
    inv.position,inv.attribution,inv.notify⟩

theorem MachineInv.setRequested (inv : MachineInv n lost m) (requested : Bool) :
    MachineInv n lost { m with queue := { m.queue with interruptsRequested := requested } } := by
  obtain ⟨free,partition⟩ := inv.partition
  exact ⟨inv.accepted,⟨free,partition.congr rfl rfl rfl rfl⟩,inv.available,inv.used,inv.position,
    inv.attribution,inv.notify⟩

namespace InterruptSystem

def ActionVisits (action : Option ActionPosition) (q : Nat) : Prop :=
  match action with
  | none => False
  | some .test | some .clear | some .call => True
  | some (.enter i) | some (.inside i) => i ≤ q

/-- The action is on its way, or will be: the filter is running, or has asked for it. -/
def WillVisit (s : InterruptSystem) (q : Nat) : Prop :=
  s.filter.isSome = true ∨ s.scheduled = true ∨ ActionVisits s.action q

def WillUnmask (s : InterruptSystem) (q : Nat) (m : Machine) : Prop :=
  s.filter.isSome = true ∨ s.scheduled = true ∨
    (ActionVisits s.action q ∧ ¬(s.action = some (.inside q) ∧ m.rechecks))

/-- An interrupt for queue `q` is pending, or is not needed as the driver gets to it anyway. -/
def Due (s : InterruptSystem) (q : Nat) (queue : InterruptQueue) : Prop :=
  queue.check = true ∨ queue.signal = true ∨ s.isrUsed = true ∨ s.WillVisit q

theorem WillUnmask.visits (unmasks : WillUnmask s q m) : WillVisit s q := by
  rcases unmasks with filter | scheduled | ⟨visits,_⟩
  · exact .inl filter
  · exact .inr (.inl scheduled)
  · exact .inr (.inr visits)

structure QueueInv (s : InterruptSystem) (q : Nat) (queue : InterruptQueue) : Prop where
  machine : ∃ n lost, MachineInv n lost queue.machine
  inside : s.action = some (.inside q) → queue.machine.processing.isSome = true
  masked : queue.requested = false → queue.flags = VirtioVringAvailFlag.noInterrupt
  unmasks : queue.requested = true → queue.flags ≠ 0 → s.WillUnmask q queue.machine
  due : queue.requested = true → queue.machine.unprocessed ≠ [] → s.Due q queue

/-- A change of configuration that has not been handled is on its way. The flag counts only
until the action has tested it, and from then on the call is to come. -/
def ConfigDue (s : InterruptSystem) : Prop :=
  s.configSignal = true ∨ s.isrConfChange = true ∨ s.filter = some .setConfigChange ∨
    (s.receivedConfigChange = true ∧
      (s.filter = some .returnTrue ∨ s.scheduled = true ∨ s.action = some .test)) ∨
    s.action = some .clear ∨ s.action = some .call

structure Inv (s : InterruptSystem) : Prop where
  queues : ∀ q < s.numVirtqueues, QueueInv s q (s.virtqueues q)
  config : s.configChangeAction = true → s.handledChanges ≠ s.configChanges → s.ConfigDue

/-- The queue stays as it is while the rest of the system moves on. -/
theorem QueueInv.mono (inv : QueueInv s q queue)
    (inside : s'.action = some (.inside q) → s.action = some (.inside q))
    (unmasks : s.WillUnmask q queue.machine → s'.WillUnmask q queue.machine)
    (due : s.Due q queue → s'.Due q queue) : QueueInv s' q queue :=
  ⟨inv.machine,fun now => inv.inside (inside now),inv.masked,
    fun asked masked => unmasks (inv.unmasks asked masked),
    fun asked left => due (inv.due asked left)⟩

/-- A queue that is about to be visited, and unmasked, needs nothing else. -/
theorem QueueInv.visited (inv : QueueInv s q queue)
    (inside : s'.action = some (.inside q) → s.action = some (.inside q))
    (unmasks : s'.WillUnmask q queue.machine) : QueueInv s' q queue :=
  inv.mono inside (fun _ => unmasks) fun _ => .inr (.inr (.inr unmasks.visits))

theorem queues_update {s' : InterruptSystem} {lines : Nat → InterruptQueue}
    (others : ∀ q < num, q ≠ i → QueueInv s' q (lines q)) (own : i < num → QueueInv s' i queue) :
    ∀ q < num, QueueInv s' q (Function.update lines i queue q) := by
  intro q inRange
  by_cases same : q = i
  · subst same
    rw [Function.update_self]
    exact own inRange
  · rw [Function.update_of_ne same]
    exact others q inRange same

theorem QueueInv.stepped {queue : InterruptQueue} (inv : QueueInv s q queue)
    (sound : Sound queue.machine a) (taken : step a queue.machine = some m) (other : a ≠ .advance)
    (seen : ∀ position writtenBytes, a = .complete position writtenBytes → check = true)
    (checks : queue.check = true → check = true) :
    QueueInv s q { queue with machine := m, check := check } := by
  obtain ⟨n,lost,machine⟩ := inv.machine
  obtain ⟨more,kept,_⟩ := machine.keeps taken (.inl sound)
  have frame := machine.step_frame sound taken other
  refine ⟨⟨n,_,kept⟩,?_,?_,?_,?_⟩
  · intro now
    have busy := inv.inside now
    rw [frame.processing busy]
    exact busy
  · intro off
    exact frame.flags.trans (inv.masked (frame.requested.symm.trans off))
  · intro asked masked
    have before := inv.unmasks (frame.requested.symm.trans asked) fun clear =>
      masked (frame.flags.trans clear)
    rcases before with filter | scheduled | ⟨visits,early⟩
    · exact .inl filter
    · exact .inr (.inl scheduled)
    · refine .inr (.inr ⟨visits,?_⟩)
      rintro ⟨now,limit,total,next,again⟩
      rw [frame.processing (inv.inside now)] at again
      exact early ⟨now,limit,total,next,again⟩
  · intro asked left
    by_cases returns : ∃ position writtenBytes, a = .complete position writtenBytes
    · obtain ⟨position,writtenBytes,same⟩ := returns
      exact .inl (seen position writtenBytes same)
    · have same := frame.returned fun position writtenBytes equal =>
        returns ⟨position,writtenBytes,equal⟩
      have before : queue.machine.unprocessed ≠ [] := by
        rw [Machine.unprocessed,← same,← frame.log]
        exact left
      rcases inv.due (frame.requested.symm.trans asked) before with check | signal | rest
      · exact .inl (checks check)
      · exact .inr (.inl signal)
      · exact .inr (.inr rest)

/-- A processing call unmasks only queues that have asked for interrupts. -/
theorem QueueInv.stays_masked (inv : QueueInv s q queue) (frame : AdvanceFrame queue.machine m)
    (off : m.queue.interruptsRequested = false) :
    m.queue.availableRing.flags = VirtioVringAvailFlag.noInterrupt := by
  have before : queue.requested = false := frame.requested.symm.trans off
  rcases frame.flags with same | ⟨on,_⟩
  · exact same.trans (inv.masked before)
  · exact absurd (before.symm.trans on) (by simp)

theorem QueueInv.polled (inv : QueueInv s q queue) (outside : s.action ≠ some (.inside q))
    (taken : queue.machine.advance = some m) : QueueInv s q { queue with machine := m } := by
  obtain ⟨n,lost,machine⟩ := inv.machine
  have frame := machine.advance_frame taken
  refine ⟨⟨n,lost,(machine.advance taken).1⟩,fun now => absurd now outside,
    inv.stays_masked frame,?_,?_⟩
  · intro asked masked
    rcases frame.flags with same | ⟨_,clear⟩
    · have before := inv.unmasks (frame.requested.symm.trans asked) fun clear =>
        masked (same.trans clear)
      rcases before with filter | scheduled | ⟨visits,_⟩
      · exact .inl filter
      · exact .inr (.inl scheduled)
      · exact .inr (.inr ⟨visits,fun now => outside now.1⟩)
    · exact absurd clear masked
  · intro asked left
    exact inv.due (frame.requested.symm.trans asked) (frame.unprocessed left)

/-- A step of the action's own call. As it returns from its last read of the used index, the
queue is unmasked unless the filter has come in between. -/
theorem QueueInv.processed {s : InterruptSystem} (inv : QueueInv s i queue)
    (inside : s.action = some (.inside i)) (taken : queue.machine.advance = some m)
    (filter : s'.filter = s.filter) (scheduled : s'.scheduled = s.scheduled)
    (action : s'.action = some (if m.processing.isSome then .inside i else .enter (i + 1))) :
    QueueInv s' i { queue with machine := m } := by
  obtain ⟨n,lost,machine⟩ := inv.machine
  have frame := machine.advance_frame taken
  have kept : ∃ n lost, MachineInv n lost m := ⟨n,lost,(machine.advance taken).1⟩
  cases busy : m.processing.isSome with
  | true =>
    rw [busy,if_pos rfl] at action
    have visits : ActionVisits s'.action i := by
      rw [action]
      exact Nat.le_refl i
    refine ⟨kept,fun _ => busy,inv.stays_masked frame,?_,fun _ _ => .inr (.inr (.inr (.inr (.inr visits))))⟩
    intro asked set
    refine .inr (.inr ⟨visits,?_⟩)
    rintro ⟨_,rechecks⟩
    exact set (frame.rechecks rechecks (frame.requested.symm.trans asked))
  | false =>
    rw [busy] at action
    obtain ⟨rechecks,finished⟩ := frame.returns (by simpa using busy)
    refine ⟨kept,?_,inv.stays_masked frame,?_,fun _ left => absurd finished left⟩
    · intro now
      rw [action] at now
      cases now
    intro asked set
    have before := inv.unmasks (frame.requested.symm.trans asked) fun clear => by
      rcases frame.flags with same | ⟨_,zero⟩
      · exact set (same.trans clear)
      · exact set zero
    rcases before with running | waiting | ⟨_,early⟩
    · exact .inl (by rw [filter]; exact running)
    · exact .inr (.inl (by rw [scheduled]; exact waiting))
    · exact absurd ⟨inside,rechecks⟩ early

theorem Inv.setQueue (inv : Inv s) (own : i < s.numVirtqueues → QueueInv s i queue) :
    Inv (s.setQueue i queue) :=
  ⟨queues_update (fun q inRange _ => (inv.queues q inRange).mono id id id)
    fun inRange => (own inRange).mono id id id,inv.config⟩

theorem Inv.queueStep (inv : Inv s)
    (sound : ∀ a', a' = a → Sound (s.virtqueues i).machine a')
    (taken : s.queueStep i a = some s') : Inv s' := by
  simp only [InterruptSystem.queueStep] at taken
  split at taken
  · rename_i inRange
    have own := inv.queues i inRange
    have sound := sound a rfl
    split at taken
    · split at taken
      · cases taken
      · rename_i outside
        obtain ⟨m,moved,rfl⟩ := Option.map_eq_some_iff.mp taken
        exact inv.setQueue fun _ => own.polled outside moved
    · obtain ⟨m,moved,rfl⟩ := Option.map_eq_some_iff.mp taken
      exact inv.setQueue fun _ => own.stepped sound moved (by simp) (fun _ _ _ => rfl) fun _ => rfl
    · rename_i other fresh
      obtain ⟨m,moved,rfl⟩ := Option.map_eq_some_iff.mp taken
      exact inv.setQueue fun _ =>
        own.stepped sound moved other (fun p w same => absurd same (fresh p w)) id
  · cases taken

theorem Inv.readFlags (inv : Inv s) (taken : s.readFlags i = some s') : Inv s' := by
  simp only [InterruptSystem.readFlags] at taken
  split at taken
  · rename_i checking
    obtain rfl := Option.some.inj taken
    apply inv.setQueue
    intro inRange
    have own := inv.queues i inRange
    refine ⟨own.machine,own.inside,own.masked,own.unmasks,?_⟩
    intro asked left
    by_cases clear : (s.virtqueues i).flags = 0
    · exact .inr (.inl (by simp [clear]))
    · exact .inr (.inr (.inr (own.unmasks asked clear).visits))
  · cases taken

theorem Inv.raiseUsed (inv : Inv s) (taken : s.raiseUsed i = some s') : Inv s' := by
  simp only [InterruptSystem.raiseUsed] at taken
  split at taken
  · obtain rfl := Option.some.inj taken
    refine ⟨queues_update (fun q inside _ => ?_) fun inRange => ?_,inv.config⟩
    · exact (inv.queues q inside).mono id id fun _ => .inr (.inr (.inl rfl))
    · have own := inv.queues i inRange
      exact ⟨own.machine,own.inside,own.masked,own.unmasks,fun _ _ => .inr (.inr (.inl rfl))⟩
  · cases taken

theorem Inv.changeConfig (inv : Inv s) : Inv s.changeConfig :=
  ⟨fun q inRange => (inv.queues q inRange).mono id id id,fun _ _ => .inl rfl⟩

theorem Inv.raiseConfig (inv : Inv s) (taken : s.raiseConfig = some s') : Inv s' := by
  simp only [InterruptSystem.raiseConfig] at taken
  split at taken
  · obtain rfl := Option.some.inj taken
    exact ⟨fun q inRange => (inv.queues q inRange).mono id id id,fun _ _ => .inr (.inl rfl)⟩
  · cases taken

theorem Inv.schedule (inv : Inv s) : Inv { s with scheduled := true } := by
  refine ⟨fun q inRange => (inv.queues q inRange).visited id (.inr (.inl rfl)),?_⟩
  intro used behind
  rcases inv.config used behind with signal | isr | filter | ⟨received,_⟩ | clear | call
  · exact .inl signal
  · exact .inr (.inl isr)
  · exact .inr (.inr (.inl filter))
  · exact .inr (.inr (.inr (.inl ⟨received,.inr (.inl rfl)⟩)))
  · exact .inr (.inr (.inr (.inr (.inl clear))))
  · exact .inr (.inr (.inr (.inr (.inr call))))

/-- While the filter runs, every queue is going to be visited. -/
theorem QueueInv.filtered (inv : QueueInv s q queue) (same : s'.action = s.action)
    (running : s'.filter.isSome = true) : QueueInv s' q queue :=
  inv.visited (fun now => same.symm.trans now) (.inl running)

/-- A filter that is not about to report a change does not stand for one. -/
theorem ConfigDue.filtered (due : ConfigDue s) (before : s.filter ≠ some .setConfigChange)
    (returning : s.filter ≠ some .returnTrue) (signal : s'.configSignal = s.configSignal)
    (isr : s.isrConfChange = true → s'.isrConfChange = true)
    (received : s'.receivedConfigChange = s.receivedConfigChange)
    (scheduled : s'.scheduled = s.scheduled) (action : s'.action = s.action) : ConfigDue s' := by
  rcases due with signals | raised | filtered | ⟨flagged,returns | waits | tests⟩ | clears | calls
  · exact .inl (signal.trans signals)
  · exact .inr (.inl (isr raised))
  · exact absurd filtered before
  · exact absurd returns returning
  · exact .inr (.inr (.inr (.inl ⟨received.trans flagged,.inr (.inl (scheduled.trans waits))⟩)))
  · exact .inr (.inr (.inr (.inl ⟨received.trans flagged,.inr (.inr (action.trans tests))⟩)))
  · exact .inr (.inr (.inr (.inr (.inl (action.trans clears)))))
  · exact .inr (.inr (.inr (.inr (.inr (action.trans calls)))))

theorem Inv.enterFilter (inv : Inv s) (idle : s.filter = none) : Inv s.enterFilter := by
  cases changed : s.isrConfChange with
  | true =>
    have position : s.enterFilter.filter = some .setConfigChange := by
      simp [InterruptSystem.enterFilter,changed]
    exact ⟨fun q inRange => (inv.queues q inRange).filtered rfl (by simp [position]),
      fun _ _ => .inr (.inr (.inl position))⟩
  | false =>
    have config : s.enterFilter.configChangeAction = true →
        s.enterFilter.handledChanges ≠ s.enterFilter.configChanges → s.enterFilter.ConfigDue := by
      intro used behind
      exact (inv.config used behind).filtered (by simp [idle]) (by simp [idle]) rfl
        (fun isr => absurd (changed.symm.trans isr) (by simp)) rfl rfl rfl
    cases used : s.isrUsed with
    | true =>
      have position : s.enterFilter.filter = some (.mask 0) := by
        simp [InterruptSystem.enterFilter,changed,used]
      exact ⟨fun q inRange => (inv.queues q inRange).filtered rfl (by simp [position]),config⟩
    | false =>
      have same : s.enterFilter = s := by
        obtain ⟨num,lines,callback,received,isrUsed,isrConf,filter,rest⟩ := s
        simp only at idle changed used
        simp [InterruptSystem.enterFilter,idle,changed,used]
      rw [same]
      exact inv

theorem Inv.interruptFilter (inv : Inv s) : Inv s.interruptFilter := by
  simp only [InterruptSystem.interruptFilter]
  split
  · rename_i idle
    exact inv.enterFilter idle
  · exact ⟨fun q inRange => (inv.queues q inRange).filtered rfl rfl,
      fun _ _ => .inr (.inr (.inr (.inl ⟨rfl,.inl rfl⟩)))⟩
  · rename_i i position
    have config (next : FilterPosition) (used : s.configChangeAction = true)
        (behind : s.handledChanges ≠ s.configChanges) :
        ConfigDue { s with filter := some next } :=
      (inv.config used behind).filtered (by simp [position]) (by simp [position]) rfl id rfl rfl rfl
    split
    · refine ⟨queues_update (fun q inRange _ => (inv.queues q inRange).filtered rfl rfl) ?_,config _⟩
      intro inRange
      have own := inv.queues i inRange
      obtain ⟨n,lost,machine⟩ := own.machine
      exact ⟨⟨n,lost,machine.setAvailableFlags _⟩,own.inside,fun _ => rfl,fun _ _ => .inl rfl,
        fun _ _ => .inr (.inr (.inr (.inl rfl)))⟩
    · exact ⟨fun q inRange => (inv.queues q inRange).filtered rfl rfl,config _⟩
  · rename_i position
    refine ⟨fun q inRange => (inv.queues q inRange).visited id (.inr (.inl rfl)),?_⟩
    intro used behind
    rcases inv.config used behind with signal | isr | filter | ⟨received,_⟩ | later
    · exact .inl signal
    · exact .inr (.inl isr)
    · exact absurd (position.symm.trans filter) (by simp)
    · exact .inr (.inr (.inr (.inl ⟨received,.inr (.inl rfl)⟩)))
    · exact .inr (.inr (.inr (.inr later)))

/-- The action moves on, and queues that it was going to visit it still is. -/
theorem QueueInv.advanced (inv : QueueInv s q queue) (filter : s'.filter = s.filter)
    (scheduled : s.scheduled = true → s'.scheduled = true ∨ ActionVisits s'.action q)
    (isrUsed : s'.isrUsed = s.isrUsed)
    (visits : ActionVisits s.action q → ActionVisits s'.action q)
    (outside : s'.action ≠ some (.inside q)) : QueueInv s' q queue := by
  refine inv.mono (fun now => absurd now outside) ?_ ?_
  · rintro (running | waiting | ⟨later,_⟩)
    · exact .inl (by rw [filter]; exact running)
    · rcases scheduled waiting with still | starts
      · exact .inr (.inl still)
      · exact .inr (.inr ⟨starts,fun now => outside now.1⟩)
    · exact .inr (.inr ⟨visits later,fun now => outside now.1⟩)
  · rintro (check | signal | isr | running | waiting | later)
    · exact .inl check
    · exact .inr (.inl signal)
    · exact .inr (.inr (.inl (by rw [isrUsed]; exact isr)))
    · exact .inr (.inr (.inr (.inl (by rw [filter]; exact running))))
    · rcases scheduled waiting with still | starts
      · exact .inr (.inr (.inr (.inr (.inl still))))
      · exact .inr (.inr (.inr (.inr (.inr starts))))
    · exact .inr (.inr (.inr (.inr (.inr (visits later)))))

theorem ConfigDue.outside (due : ConfigDue s) (test : s.action ≠ some .test)
    (clear : s.action ≠ some .clear) (call : s.action ≠ some .call)
    (signal : s'.configSignal = s.configSignal) (isr : s'.isrConfChange = s.isrConfChange)
    (filter : s'.filter = s.filter) (received : s'.receivedConfigChange = s.receivedConfigChange)
    (scheduled : s.scheduled = true → s'.scheduled = true ∨ s'.action = some .test) :
    ConfigDue s' := by
  rcases due with signals | raised | filtered | ⟨flagged,returns | waits | tests⟩ | clears | calls
  · exact .inl (signal.trans signals)
  · exact .inr (.inl (isr.trans raised))
  · exact .inr (.inr (.inl (filter.trans filtered)))
  · exact .inr (.inr (.inr (.inl ⟨received.trans flagged,.inl (filter.trans returns)⟩)))
  · exact .inr (.inr (.inr (.inl ⟨received.trans flagged,.inr (scheduled waits)⟩)))
  · exact absurd tests test
  · exact absurd clears clear
  · exact absurd calls call

theorem Inv.enterAction (inv : Inv s) (idle : s.action = none) :
    Inv { s with scheduled := false, action := some .test } := by
  refine ⟨fun q inRange => ?_,fun used behind => ?_⟩
  · exact (inv.queues q inRange).advanced rfl (fun _ => .inr trivial) rfl
      (by rw [idle]; exact False.elim) (by simp)
  · exact (inv.config used behind).outside (by simp [idle]) (by simp [idle]) (by simp [idle]) rfl rfl
      rfl rfl fun _ => .inr rfl

theorem Inv.testConfig (inv : Inv s) (position : s.action = some .test) :
    Inv { s with action := some (if s.receivedConfigChange then .clear else .enter 0) } := by
  cases flagged : s.receivedConfigChange with
  | true =>
    exact ⟨fun q inRange => (inv.queues q inRange).advanced rfl .inl rfl (fun _ => trivial)
      (by simp),fun _ _ => .inr (.inr (.inr (.inr (.inl rfl))))⟩
  | false =>
    refine ⟨fun q inRange => (inv.queues q inRange).advanced rfl .inl rfl
      (fun _ => Nat.zero_le q) (by simp),fun used behind => ?_⟩
    rcases inv.config used behind with signal | isr | filter | ⟨received,_⟩ | clear | call
    · exact .inl signal
    · exact .inr (.inl isr)
    · exact .inr (.inr (.inl filter))
    · exact absurd (flagged.symm.trans received) (by simp)
    · exact absurd (position.symm.trans clear) (by simp)
    · exact absurd (position.symm.trans call) (by simp)

theorem Inv.enterQueue (inv : Inv s) (position : s.action = some (.enter i))
    (inRange : i < s.numVirtqueues) (taken : (s.virtqueues i).machine.process 0 = some m) :
    Inv { s.setQueue i { s.virtqueues i with machine := m } with action := some (.inside i) } := by
  have own := inv.queues i inRange
  obtain ⟨n,lost,machine⟩ := own.machine
  refine ⟨queues_update (fun q inside apart => ?_) fun _ => ?_,fun used behind => ?_⟩
  · refine (inv.queues q inside).advanced rfl .inl rfl (fun before => ?_) (by simpa using Ne.symm apart)
    rw [position] at before
    exact before
  · have kept := machine.process taken
    simp only [Machine.process] at taken
    split at taken
    · obtain rfl := Option.some.inj taken
      refine ⟨⟨n,lost,kept⟩,fun _ => rfl,own.masked,fun _ _ => .inr (.inr ⟨Nat.le_refl i,?_⟩),
        fun _ _ => .inr (.inr (.inr (.inr (.inr (Nat.le_refl i)))))⟩
      rintro ⟨_,_,_,_,never⟩
      cases never
    · cases taken
  · exact (inv.config used behind).outside (by simp [position]) (by simp [position])
      (by simp [position]) rfl rfl rfl rfl .inl

theorem Inv.processQueue (inv : Inv s) (position : s.action = some (.inside i))
    (taken : s.processQueue i = some s') : Inv s' := by
  obtain ⟨m,moved,rfl⟩ := Option.map_eq_some_iff.mp taken
  refine ⟨queues_update (fun q inside apart => ?_) fun inRange => ?_,fun used behind => ?_⟩
  · refine (inv.queues q inside).advanced rfl .inl rfl (fun before => ?_) ?_
    · rw [position] at before
      have before : i ≤ q := before
      split
      · exact before
      · exact (show i + 1 ≤ q by omega)
    · split
      · simpa using Ne.symm apart
      · simp
  · exact (inv.queues i inRange).processed position moved rfl rfl rfl
  · exact (inv.config used behind).outside (by simp [position]) (by simp [position])
      (by simp [position]) rfl rfl rfl rfl .inl

theorem Inv.interruptAction (inv : Inv s) (taken : s.interruptAction = some s') : Inv s' := by
  simp only [InterruptSystem.interruptAction] at taken
  split at taken
  · rename_i idle
    split at taken
    · obtain rfl := Option.some.inj taken
      exact inv.enterAction idle
    · cases taken
  · rename_i position
    obtain rfl := Option.some.inj taken
    exact inv.testConfig position
  · obtain rfl := Option.some.inj taken
    exact ⟨fun q inRange => (inv.queues q inRange).advanced rfl .inl rfl (fun _ => trivial)
      (by simp),fun _ _ => .inr (.inr (.inr (.inr (.inr rfl))))⟩
  · obtain rfl := Option.some.inj taken
    refine ⟨fun q inRange => (inv.queues q inRange).advanced rfl .inl rfl
      (fun _ => Nat.zero_le q) (by simp),fun used behind => ?_⟩
    have used : s.configChangeAction = true := used
    simp [used] at behind
  · rename_i i position
    split at taken
    · rename_i inRange
      obtain ⟨m,moved,rfl⟩ := Option.map_eq_some_iff.mp taken
      exact inv.enterQueue position inRange moved
    · rename_i past
      obtain rfl := Option.some.inj taken
      refine ⟨fun q inRange => ?_,fun used behind => ?_⟩
      · refine (inv.queues q inRange).advanced rfl .inl rfl (fun before => ?_) (by simp)
        rw [position] at before
        have before : i ≤ q := before
        have inRange : q < s.numVirtqueues := inRange
        omega
      · exact (inv.config used behind).outside (by simp [position]) (by simp [position])
          (by simp [position]) rfl rfl rfl rfl .inl
  · rename_i position
    exact inv.processQueue position taken

theorem setEnabled_inside {s : InterruptSystem} (inRange : queueId < s.numVirtqueues)
    (enabled : Bool) :
    s.setVirtqueueInterruptsEnabled queueId enabled = some (.success,
      if (s.virtqueues queueId).requested ≠ enabled then
        s.setQueue queueId (((s.virtqueues queueId).setRequested enabled).setFlags
          (if enabled then 0 else VirtioVringAvailFlag.noInterrupt))
      else s) := by
  rw [setVirtqueueInterruptsEnabled,if_neg (by omega),queueAt,if_pos inRange,Option.map_some]
  split
  · rfl
  · rfl

/-- The bound of the check is one too high. -/
theorem setEnabled_outside {s : InterruptSystem} (outside : s.numVirtqueues ≤ queueId)
    (enabled : Bool) :
    s.setVirtqueueInterruptsEnabled queueId enabled =
      if queueId = s.numVirtqueues then none else some (.badArgument, s) := by
  rw [setVirtqueueInterruptsEnabled]
  by_cases same : queueId = s.numVirtqueues
  · have beyond : s.queueAt queueId = none := if_neg (by omega)
    rw [if_neg (by omega),if_pos same,beyond,Option.map_none]
  · rw [if_pos (by omega),if_neg same]

/-- Enabling the interrupts of a queue that is due, or has nothing to process, leaves nothing
behind; neither does disabling them. -/
theorem Inv.setEnabled (inv : Inv s)
    (careful : enabled = true → queueId < s.numVirtqueues →
      (s.virtqueues queueId).requested = false →
      (s.virtqueues queueId).machine.unprocessed ≠ [] → s.Due queueId (s.virtqueues queueId))
    (taken : s.setVirtqueueInterruptsEnabled queueId enabled = some (result, s')) : Inv s' := by
  by_cases inRange : queueId < s.numVirtqueues
  · rw [setEnabled_inside inRange,Option.some.injEq] at taken
    obtain ⟨_,rfl⟩ := Prod.mk.inj taken
    split
    · rename_i changes
      apply inv.setQueue
      intro inRange
      have own := inv.queues queueId inRange
      obtain ⟨n,lost,machine⟩ := own.machine
      refine ⟨⟨n,lost,(machine.setRequested enabled).setAvailableFlags _⟩,own.inside,?_,?_,?_⟩
      · intro off
        have off : enabled = false := off
        simp [off,InterruptQueue.flags,InterruptQueue.setFlags,Machine.setAvailableFlags]
      · intro on set
        have on : enabled = true := on
        simp [on,InterruptQueue.flags,InterruptQueue.setFlags,Machine.setAvailableFlags] at set
      · intro on left
        have on : enabled = true := on
        have off : (s.virtqueues queueId).requested = false := by simpa [on] using changes
        exact careful on inRange off left
    · exact inv
  · rw [setEnabled_outside (by omega)] at taken
    split at taken
    · cases taken
    · rw [Option.some.injEq] at taken
      obtain ⟨_,rfl⟩ := Prod.mk.inj taken
      exact inv

end InterruptSystem

def InterruptEvent.Sound (s : InterruptSystem) (e : InterruptEvent) : Prop :=
  ∀ i a, e = .queue i a → VirtioOsx.Sound (s.virtqueues i).machine a

/-- A queue whose interrupts are enabled has nothing to process, or is due. -/
def InterruptEvent.Careful (s : InterruptSystem) (e : InterruptEvent) : Prop :=
  ∀ queueId, e = .setEnabled queueId true → queueId < s.numVirtqueues →
    (s.virtqueues queueId).requested = false →
    (s.virtqueues queueId).machine.unprocessed ≠ [] → s.Due queueId (s.virtqueues queueId)

theorem InterruptSystem.Inv.keeps (inv : Inv s) (sound : e.Sound s) (careful : e.Careful s)
    (taken : interruptStep e s = some s') : Inv s' := by
  cases e with
  | queue i a => exact inv.queueStep (fun a' same => sound i a' (by rw [same])) taken
  | readFlags i => exact inv.readFlags taken
  | raiseUsed i => exact inv.raiseUsed taken
  | changeConfig =>
    obtain rfl := Option.some.inj taken
    exact inv.changeConfig
  | raiseConfig => exact inv.raiseConfig taken
  | filter =>
    obtain rfl := Option.some.inj taken
    exact inv.interruptFilter
  | schedule =>
    obtain rfl := Option.some.inj taken
    exact inv.schedule
  | action => exact inv.interruptAction taken
  | setEnabled queueId enabled =>
    obtain ⟨⟨result,s'⟩,called,rfl⟩ := Option.map_eq_some_iff.mp taken
    exact inv.setEnabled (fun on => careful queueId (by rw [on])) called

def SetUp (queue : VirtioVirtqueue) : Prop :=
  ∃ n activeFeatures interruptsEnabled indirectDescPerRequest calls, n < 65536 ∧
    setupVirtqueue n activeFeatures interruptsEnabled indirectDescPerRequest calls = .ok queue

namespace InterruptSystem

theorem inv_start (ready : ∀ q < num, SetUp (queues q)) (callback : Bool) :
    Inv (.start num queues callback) := by
  refine ⟨fun q inRange => ?_,fun _ behind => absurd rfl behind⟩
  obtain ⟨n,features,enabled,indirect,calls,small,built⟩ := ready q inRange
  have machine := machineInv_setup small built
  obtain ⟨accepted,indirect,same⟩ := setupVirtqueue_ok small built
  refine ⟨⟨n,[],machine⟩,nofun,?_,?_,fun _ left => absurd rfl left⟩
  · intro off
    have off : (queues q).interruptsRequested = false := off
    show (queues q).availableRing.flags = _
    rw [same] at off ⊢
    have off : enabled = false := off
    simp [initialQueue,off]
  · intro on set
    have on : (queues q).interruptsRequested = true := on
    have set : (queues q).availableRing.flags ≠ 0 := set
    rw [same] at on set
    have on : enabled = true := on
    simp [initialQueue,on] at set

/-- No interrupt is pending or about to be raised, and neither the filter nor the action is
running or is to run. -/
structure Quiescent (s : InterruptSystem) : Prop where
  isrUsed : s.isrUsed = false
  isrConfChange : s.isrConfChange = false
  filter : s.filter = none
  scheduled : s.scheduled = false
  action : s.action = none
  configSignal : s.configSignal = false
  check : ∀ q < s.numVirtqueues, (s.virtqueues q).check = false
  signal : ∀ q < s.numVirtqueues, (s.virtqueues q).signal = false

theorem Quiescent.unvisited (quiet : Quiescent s) (q : Nat) : ¬s.WillVisit q := by
  rintro (filter | scheduled | visits)
  · simp [quiet.filter] at filter
  · simp [quiet.scheduled] at scheduled
  · rw [quiet.action] at visits
    exact visits

theorem Inv.processed (inv : Inv s) (quiet : Quiescent s) (inRange : q < s.numVirtqueues)
    (asked : (s.virtqueues q).requested = true) :
    (s.virtqueues q).machine.unprocessed = [] ∧ (s.virtqueues q).flags = 0 := by
  have own := inv.queues q inRange
  constructor
  · by_contra left
    rcases own.due asked left with check | signal | isr | visits
    · exact absurd ((quiet.check q inRange).symm.trans check) (by simp)
    · exact absurd ((quiet.signal q inRange).symm.trans signal) (by simp)
    · exact absurd (quiet.isrUsed.symm.trans isr) (by simp)
    · exact quiet.unvisited q visits
  · by_contra masked
    exact quiet.unvisited q (own.unmasks asked masked).visits

theorem Inv.handled (inv : Inv s) (quiet : Quiescent s) (used : s.configChangeAction = true) :
    s.handledChanges = s.configChanges := by
  by_contra behind
  rcases inv.config used behind with signal | isr | filter | ⟨_,filter | scheduled | test⟩ | clear | call
  · exact absurd (quiet.configSignal.symm.trans signal) (by simp)
  · exact absurd (quiet.isrConfChange.symm.trans isr) (by simp)
  · exact absurd (quiet.filter.symm.trans filter) (by simp)
  · exact absurd (quiet.filter.symm.trans filter) (by simp)
  · exact absurd (quiet.scheduled.symm.trans scheduled) (by simp)
  · exact absurd (quiet.action.symm.trans test) (by simp)
  · exact absurd (quiet.action.symm.trans clear) (by simp)
  · exact absurd (quiet.action.symm.trans call) (by simp)

structure SameSettings (s s' : InterruptSystem) : Prop where
  numVirtqueues : s'.numVirtqueues = s.numVirtqueues
  configChangeAction : s'.configChangeAction = s.configChangeAction
  requested : ∀ q < s.numVirtqueues, (s'.virtqueues q).requested = (s.virtqueues q).requested

theorem SameSettings.refl (s : InterruptSystem) : SameSettings s s := ⟨rfl,rfl,fun _ _ => rfl⟩

theorem SameSettings.of_eq (numVirtqueues : s'.numVirtqueues = s.numVirtqueues)
    (configChangeAction : s'.configChangeAction = s.configChangeAction)
    (same : s'.virtqueues = s.virtqueues) : SameSettings s s' :=
  ⟨numVirtqueues,configChangeAction,fun _ _ => by rw [same]⟩

theorem SameSettings.update (numVirtqueues : s'.numVirtqueues = s.numVirtqueues)
    (configChangeAction : s'.configChangeAction = s.configChangeAction)
    (virtqueues : s'.virtqueues = Function.update s.virtqueues i queue)
    (own : i < s.numVirtqueues → queue.requested = (s.virtqueues i).requested) :
    SameSettings s s' := by
  refine ⟨numVirtqueues,configChangeAction,fun q inRange => ?_⟩
  rw [virtqueues]
  by_cases same : q = i
  · subst same
    rw [Function.update_self]
    exact own inRange
  · rw [Function.update_of_ne same]

theorem Inv.queueStep_settings (inv : Inv s)
    (sound : ∀ a', a' = a → Sound (s.virtqueues i).machine a')
    (taken : s.queueStep i a = some s') : SameSettings s s' := by
  simp only [InterruptSystem.queueStep] at taken
  split at taken
  · rename_i inRange
    obtain ⟨n,lost,machine⟩ := (inv.queues i inRange).machine
    have sound := sound a rfl
    split at taken
    · split at taken
      · cases taken
      · obtain ⟨m,moved,rfl⟩ := Option.map_eq_some_iff.mp taken
        exact .update rfl rfl rfl fun _ => (machine.advance_frame moved).requested
    · obtain ⟨m,moved,rfl⟩ := Option.map_eq_some_iff.mp taken
      exact .update rfl rfl rfl fun _ => (machine.step_frame sound moved (by simp)).requested
    · rename_i other fresh
      obtain ⟨m,moved,rfl⟩ := Option.map_eq_some_iff.mp taken
      exact .update rfl rfl rfl fun _ => (machine.step_frame sound moved other).requested
  · cases taken

theorem Inv.interruptAction_settings (inv : Inv s) (taken : s.interruptAction = some s') :
    SameSettings s s' := by
  simp only [InterruptSystem.interruptAction] at taken
  split at taken
  · split at taken
    · obtain rfl := Option.some.inj taken
      exact .of_eq rfl rfl rfl
    · cases taken
  · obtain rfl := Option.some.inj taken
    exact .of_eq rfl rfl rfl
  · obtain rfl := Option.some.inj taken
    exact .of_eq rfl rfl rfl
  · obtain rfl := Option.some.inj taken
    exact .of_eq rfl rfl rfl
  · split at taken
    · obtain ⟨m,moved,rfl⟩ := Option.map_eq_some_iff.mp taken
      refine .update rfl rfl rfl fun inRange => ?_
      obtain ⟨n,lost,machine⟩ := (inv.queues _ inRange).machine
      exact (machine.step_frame (a := .process 0) (by simp [Sound]) moved (by simp)).requested
    · obtain rfl := Option.some.inj taken
      exact .of_eq rfl rfl rfl
  · obtain ⟨m,moved,rfl⟩ := Option.map_eq_some_iff.mp taken
    refine .update rfl rfl rfl fun inRange => ?_
    obtain ⟨n,lost,machine⟩ := (inv.queues _ inRange).machine
    exact (machine.advance_frame moved).requested

theorem interruptFilter_settings (s : InterruptSystem) : SameSettings s s.interruptFilter := by
  simp only [InterruptSystem.interruptFilter]
  split
  · exact .of_eq rfl rfl rfl
  · exact .of_eq rfl rfl rfl
  · split
    · exact .update rfl rfl rfl fun _ => rfl
    · exact .of_eq rfl rfl rfl
  · exact .of_eq rfl rfl rfl

theorem Inv.settings (inv : Inv s) (sound : e.Sound s)
    (fixed : ∀ queueId enabled, e ≠ .setEnabled queueId enabled)
    (taken : interruptStep e s = some s') : SameSettings s s' := by
  cases e with
  | queue i a => exact inv.queueStep_settings (fun a' same => sound i a' (by rw [same])) taken
  | readFlags i | raiseUsed i =>
    simp only [interruptStep,InterruptSystem.readFlags,InterruptSystem.raiseUsed] at taken
    split at taken
    · obtain rfl := Option.some.inj taken
      exact .update rfl rfl rfl fun _ => rfl
    · cases taken
  | raiseConfig =>
    simp only [interruptStep,InterruptSystem.raiseConfig] at taken
    split at taken
    · obtain rfl := Option.some.inj taken
      exact .of_eq rfl rfl rfl
    · cases taken
  | changeConfig | schedule =>
    obtain rfl := Option.some.inj taken
    exact .of_eq rfl rfl rfl
  | filter =>
    obtain rfl := Option.some.inj taken
    exact interruptFilter_settings s
  | action => exact inv.interruptAction_settings taken
  | setEnabled queueId enabled => exact absurd rfl (fixed queueId enabled)

structure Fixed (num : Nat) (queues : Nat → VirtioVirtqueue) (callback : Bool)
    (s : InterruptSystem) : Prop where
  inv : Inv s
  numVirtqueues : s.numVirtqueues = num
  configChangeAction : s.configChangeAction = callback
  requested : ∀ q < num, (s.virtqueues q).requested = (queues q).interruptsRequested

theorem Fixed.keeps (fixed : Fixed num queues callback s) (sound : e.Sound s)
    (never : ∀ queueId enabled, e ≠ .setEnabled queueId enabled)
    (taken : interruptStep e s = some s') : Fixed num queues callback s' := by
  have settings := fixed.inv.settings sound never taken
  refine ⟨fixed.inv.keeps sound (fun queueId same => absurd same (never queueId true)) taken,
    settings.numVirtqueues.trans fixed.numVirtqueues,
    settings.configChangeAction.trans fixed.configChangeAction,fun q inRange => ?_⟩
  rw [settings.requested q (by rw [fixed.numVirtqueues]; exact inRange)]
  exact fixed.requested q inRange

end InterruptSystem

/-- Whenever no interrupt is pending and neither the filter nor the action is due, every queue
that wants interrupts is processed and unmasked, every other one is masked, and every change of
configuration has been followed by a call of `configChangeAction`. -/
theorem interrupts_not_lost (numVirtqueues : Nat) (queues : Nat → VirtioVirtqueue)
    (configChangeAction : Bool) (ready : ∀ q < numVirtqueues, SetUp (queues q))
    (run : Run interruptStep
      (fun s e => e.Sound s ∧ ∀ queueId enabled, e ≠ .setEnabled queueId enabled)
      (.start numVirtqueues queues configChangeAction) events s)
    (quiet : s.Quiescent) :
    (∀ q < numVirtqueues,
      ((queues q).interruptsRequested = true →
        (s.virtqueues q).machine.unprocessed = [] ∧ (s.virtqueues q).flags = 0) ∧
      ((queues q).interruptsRequested = false →
        (s.virtqueues q).flags = VirtioVringAvailFlag.noInterrupt)) ∧
    (configChangeAction = true → s.handledChanges = s.configChanges) := by
  have fixed : InterruptSystem.Fixed numVirtqueues queues configChangeAction s := by
    refine Run.keeps _ (fun allowed taken fixed => fixed.keeps allowed.1 allowed.2 taken) run ?_
    exact ⟨InterruptSystem.inv_start ready configChangeAction,rfl,rfl,fun _ _ => rfl⟩
  refine ⟨fun q inRange => ⟨fun asked => ?_,fun off => ?_⟩,fun used => ?_⟩
  · exact fixed.inv.processed quiet (by rw [fixed.numVirtqueues]; exact inRange)
      ((fixed.requested q inRange).trans asked)
  · exact (fixed.inv.queues q (by rw [fixed.numVirtqueues]; exact inRange)).masked
      ((fixed.requested q inRange).trans off)
  · exact fixed.inv.handled quiet (fixed.configChangeAction.trans used)

def firstInterrupts (q : Nat) : VirtioVirtqueue := initialQueue 4 (q == 0) false (readyCalls 4 64)

theorem firstInterrupts_setUp (q : Nat) : SetUp (firstInterrupts q) :=
  ⟨4,0,q == 0,0,readyCalls 4 64,by decide,rfl⟩

def returnedRequest : List InterruptEvent :=
  [.submit (writeSector 3), .publish, .publish, .publish, .kick, .fetch, .complete 0 7].map
    (.queue 0)

/-- The device returns a request and changes its configuration. The filter finds both bits set,
and the action handles the change and processes both queues. -/
def bothBits : List InterruptEvent :=
  returnedRequest ++ [.readFlags 0, .raiseUsed 0, .changeConfig, .raiseConfig] ++
    List.replicate 3 .filter ++ List.replicate 17 .action

def checkEvent (s : InterruptSystem) : InterruptEvent → Bool
  | .queue i a => checkSuccessful (s.virtqueues i).machine a
  | .setEnabled _ _ => false
  | _ => true

theorem sound_of_checkEvent (s : InterruptSystem) (e : InterruptEvent)
    (checked : checkEvent s e = true) :
    e.Sound s ∧ ∀ queueId enabled, e ≠ .setEnabled queueId enabled := by
  constructor
  · rintro i a rfl
    exact (successful_of_check _ _ checked).sound
  · rintro queueId enabled rfl
    cases checked

def quiescentBits (s : InterruptSystem) : List Bool :=
  [s.isrUsed, s.isrConfChange, s.filter.isSome, s.scheduled, s.action.isSome, s.configSignal,
    (s.virtqueues 0).check, (s.virtqueues 1).check, (s.virtqueues 0).signal,
    (s.virtqueues 1).signal]

theorem quiescent_of_bits (few : s.numVirtqueues ≤ 2)
    (bits : quiescentBits s = List.replicate 10 false) : s.Quiescent := by
  simp only [quiescentBits,List.replicate,List.cons.injEq,Option.isSome_eq_false_iff,
    Option.isNone_iff_eq_none,and_true] at bits
  obtain ⟨isrUsed,isrConf,filter,scheduled,action,signals,check0,check1,signal0,signal1⟩ := bits
  refine ⟨isrUsed,isrConf,filter,scheduled,action,signals,fun q inRange => ?_,fun q inRange => ?_⟩
  all_goals
    obtain rfl | rfl : q = 0 ∨ q = 1 := by omega
    all_goals assumption

theorem interrupts_not_lost_bothBits :
    ∃ s, Run interruptStep
        (fun s e => e.Sound s ∧ ∀ queueId enabled, e ≠ .setEnabled queueId enabled)
        (.start 2 firstInterrupts true) bothBits s ∧ s.Quiescent ∧
      (s.virtqueues 0).machine.returned.length = 1 ∧ (s.virtqueues 0).machine.unprocessed = [] ∧
      (s.virtqueues 0).flags = 0 ∧ (s.virtqueues 1).flags = VirtioVringAvailFlag.noInterrupt ∧
      s.configChanges = 1 ∧ s.handledChanges = s.configChanges := by
  have played : (play interruptStep checkEvent bothBits (.start 2 firstInterrupts true)).map
      (fun s => (s.numVirtqueues, quiescentBits s, (s.virtqueues 0).machine.returned.length,
        s.configChanges)) = some (2, List.replicate 10 false, 1, 1) := by decide +kernel
  obtain ⟨s,reached,seen⟩ := Option.map_eq_some_iff.mp played
  simp only [Prod.mk.injEq] at seen
  obtain ⟨two,bits,returned,changes⟩ := seen
  have run := run_of_play sound_of_checkEvent reached
  have quiet := quiescent_of_bits (Nat.le_of_eq two) bits
  obtain ⟨each,handled⟩ := interrupts_not_lost 2 firstInterrupts true
    (fun q _ => firstInterrupts_setUp q) run quiet
  obtain ⟨empty,clear⟩ := (each 0 (by decide)).1 rfl
  exact ⟨s,run,quiet,returned,empty,clear,(each 1 (by decide)).2 rfl,changes,handled rfl⟩

end VirtioOsx
