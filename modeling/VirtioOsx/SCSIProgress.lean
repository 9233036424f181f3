import VirtioOsx.SCSIEndToEnd

/-! The work loop of the SCSI controller always gets to its end: while nothing else comes from
the family and the device, it has a bounded number of steps left, it is never stuck before the
last of them, and then everything that the device has returned is handled. -/
namespace VirtioOsx

open Runs

namespace Machine

variable {m m' : Machine}

def pending (m : Machine) : Nat := m.returned.length - m.log.length

def processingLeft (m : Machine) : Nat :=
  match m.processing with
  | some call => workLeft m.pending call.position
  | none => if m.pending = 0 then 0 else 6 * m.pending + 4

def publishingLeft (m : Machine) : Nat :=
  match m.submitting with
  | none => 0
  | some (.slot _) => 3
  | some (.index _) => 2
  | some .notify => 1

theorem pending_eq (m : Machine) : m.pending = m.unprocessed.length := by
  rw [pending,unprocessed,List.length_drop]

theorem publish_left (moved : m.publish = some m') :
    m'.publishingLeft + 1 = m.publishingLeft ∧ m'.processingLeft = m.processingLeft := by
  rcases Machine.publish_cases moved with ⟨r,stage,rfl⟩ | ⟨r,stage,rfl⟩ | ⟨stage,rfl⟩
  · exact ⟨by simp [publishingLeft,stage],rfl⟩
  · exact ⟨by simp [publishingLeft,stage],rfl⟩
  · exact ⟨by simp [publishingLeft,stage],rfl⟩

theorem publish_enabled (stage : m.submitting ≠ none) : ∃ m', m.publish = some m' := by
  unfold publish
  split
  · rename_i idle
    exact absurd idle stage
  · exact ⟨_,rfl⟩
  · exact ⟨_,rfl⟩
  · exact ⟨_,rfl⟩

theorem workLeft_pos {queue : VirtioVirtqueue}
    (moved : processCompletedRequestsInVirtqueue queue call = some result)
    (returned : result.position = none) (left : Nat) : 0 < workLeft left call.position := by
  unfold processCompletedRequestsInVirtqueue at moved
  cases place : call.position with
  | poll => simp [workLeft]
  | unmask next => simp [workLeft]
  | recheck next => simp [workLeft]
  | action current next => simp [workLeft]
  | batch current next =>
    simp only [place] at moved
    split at moved
    · obtain ⟨_,_,rfl⟩ := Option.map_eq_some_iff.mp moved
      cases returned
    · obtain rfl := Option.some.inj moved
      cases returned

/-- Only the inner loop invokes anything, and then the call is in a completion action. -/
theorem invoked_position {queue : VirtioVirtqueue}
    (moved : processCompletedRequestsInVirtqueue queue call = some result)
    (invoked : result.invoked = some invocation) :
    ∃ current next, result.position = some (.action current next) := by
  unfold processCompletedRequestsInVirtqueue at moved
  cases place : call.position with
  | poll | recheck =>
    simp only [place] at moved
    split at moved
    · obtain rfl := Option.some.inj moved
      cases invoked
    · obtain rfl := Option.some.inj moved
      cases invoked
  | unmask | action =>
    simp only [place] at moved
    obtain rfl := Option.some.inj moved
    cases invoked
  | batch current next =>
    simp only [place] at moved
    split at moved
    · obtain ⟨_,_,rfl⟩ := Option.map_eq_some_iff.mp moved
      exact ⟨current,next,rfl⟩
    · obtain rfl := Option.some.inj moved
      cases invoked

theorem advance_left (inv : MachineInv n lost m) (moved : m.advance = some m') :
    m'.processingLeft < m.processingLeft ∧ m'.publishingLeft = m.publishingLeft := by
  obtain ⟨quiet,call,result,busy,taken,rfl⟩ := Machine.advance_cases moved
  obtain ⟨result',progress⟩ := inv.processed quiet busy
  obtain rfl := Option.some.inj (taken.symm.trans progress.taken)
  refine ⟨?_,rfl⟩
  cases place : result.position with
  | none =>
    obtain ⟨silent,all⟩ := progress.caughtUp place
    have nothing : m.returned.length - m.log.length = 0 := by omega
    have positive := workLeft_pos taken place m.pending
    simpa [processingLeft,busy,processed,place,silent,pending,nothing] using positive
  | some next =>
    have less := progress.less next place
    simpa [processingLeft,busy,processed,place,pending] using less

/-- A completion action that has been invoked may submit. -/
theorem invoked_maySubmit (moved : m.advance = some m')
    (logged : m'.log[m.log.length]? = some invocation) : m'.maySubmit = true := by
  obtain ⟨quiet,call,result,busy,taken,rfl⟩ := Machine.advance_cases moved
  cases invoked : result.invoked with
  | none => simp [processed,invoked] at logged
  | some other =>
    obtain ⟨current,next,place⟩ := invoked_position taken invoked
    simp [maySubmit,processed,quiet,place]

theorem advance_enabled (inv : MachineInv n lost m) (quiet : m.submitting = none)
    (busy : m.processing = some call) : ∃ m', m.advance = some m' := by
  obtain ⟨result,progress⟩ := inv.processed quiet busy
  exact ⟨m.processed call result,by simp [advance,quiet,busy,progress.taken]⟩

/-- A submission leaves the processing call where it is. -/
theorem submit_left (moved : m.submit call = some m') :
    m'.processingLeft = m.processingLeft ∧ m'.publishingLeft ≤ 3 := by
  obtain ⟨idle,⟨head,queue,_,rfl⟩ | ⟨result,queue,_,rfl⟩⟩ := Machine.submit_cases moved
  · exact ⟨rfl,by simp [publishingLeft]⟩
  · exact ⟨rfl,by simp [publishingLeft,idle]⟩

theorem transmit_submit (sent : m.transmit call = some (result, m')) :
    m.submit call = some m' := by
  obtain ⟨_,moved,same⟩ := Option.bind_eq_some_iff.mp sent
  obtain ⟨_,_,same⟩ := Option.map_eq_some_iff.mp same
  rwa [(Prod.mk.inj same).2] at moved

theorem process_left (moved : m.process limit = some m') (work : m.unprocessed ≠ []) :
    m'.processingLeft < m.processingLeft ∧ m'.publishingLeft = m.publishingLeft := by
  have positive : m.pending ≠ 0 := by
    rw [pending_eq]
    exact fun empty => work (List.length_eq_zero_iff.mp empty)
  unfold process at moved
  split at moved
  case isFalse => cases moved
  rename_i idle
  simp only [Bool.and_eq_true,Option.isNone_iff_eq_none] at idle
  obtain rfl := Option.some.inj moved
  refine ⟨?_,rfl⟩
  simp only [processingLeft,idle.2,if_neg positive,workLeft]
  exact Nat.lt_succ_self _

end Machine

namespace SCSISystem

variable {s s' : SCSISystem} {events requests : VirtioVirtqueue} {first : VirtioSCSIController}

def repostingLeft : Option Nat → Nat
  | none => 0
  | some _ => 4

/-- The steps that the work loop has at most left if the device returns nothing more. Any step of
a processing call may be the completion of an event, whose buffer is then submitted. -/
def workLeft (s : SCSISystem) : Nat :=
  5 * ((s.machine .events).processingLeft + (s.machine .requests).processingLeft) +
    repostingLeft s.reposting +
    ((s.machine .events).publishingLeft + (s.machine .requests).publishingLeft)

/-- What the work loop does by itself. It begins to process a queue only if there is something to
process. -/
def WorkLoop (s : SCSISystem) : SCSISystemAction → Prop
  | .repost _ | .advance _ | .transport _ .publish => True
  | .transport queue (.process _) => (s.machine queue).unprocessed ≠ []
  | _ => False

/-- The completion of an event is a place from which its buffer may be submitted. -/
def RepostReady (s : SCSISystem) : Prop :=
  s.reposting ≠ none → (s.machine .events).maySubmit = true

theorem workLeft_moved {queue : SCSIQueue} {m : Machine}
    (machine : s'.machine = Function.update s.machine queue m) :
    s'.workLeft + 5 * (s.machine queue).processingLeft + (s.machine queue).publishingLeft +
        repostingLeft s.reposting =
      s.workLeft + 5 * m.processingLeft + m.publishingLeft + repostingLeft s'.reposting := by
  cases queue with
  | events =>
    simp only [workLeft,machine,Function.update_self,
      Function.update_of_ne (show SCSIQueue.requests ≠ .events by decide)]
    omega
  | requests =>
    simp only [workLeft,machine,Function.update_self,
      Function.update_of_ne (show SCSIQueue.events ≠ .requests by decide)]
    omega

/-- What a step of the work loop does: there is less left, and the family and the device have
done nothing. -/
structure Worked (s s' : SCSISystem) : Prop where
  less : s'.workLeft < s.workLeft
  answers : s'.answers = s.answers
  reported : s'.reported = s.reported
  accepted : s'.history.filterMap SCSIAction.accepted = s.history.filterMap SCSIAction.accepted

theorem Worked.repost (taken : s.repost dma = some s') : Worked s s' := by
  obtain ⟨eventBuffer,inside,rest⟩ := Option.bind_eq_some_iff.mp taken
  obtain ⟨⟨result,m⟩,sent,same⟩ := Option.map_eq_some_iff.mp rest
  obtain ⟨processing,publishing⟩ := Machine.submit_left (Machine.transmit_submit sent)
  have machine : s'.machine = Function.update s.machine .events m := by
    rw [← same]
    rfl
  have closed : s'.reposting = none := by rw [← same]
  have left := workLeft_moved machine
  rw [inside,closed,show repostingLeft (some eventBuffer) = 4 from rfl,
    show repostingLeft none = 0 from rfl] at left
  refine ⟨by omega,?_,?_,?_⟩
  · rw [← same]
    rfl
  · rw [← same]
    rfl
  · rw [← same]
    simp [SCSIAction.accepted]

/-- A completion that is invoked begins the submission of an event buffer, or it completes a
task. -/
theorem completed_left {queue : SCSIQueue} {m : Machine} (idle : s.reposting = none)
    (progress : m.processingLeft < (s.machine queue).processingLeft)
    (publishing : m.publishingLeft = (s.machine queue).publishingLeft)
    (completion : VirtioCompletion) : Worked s ((s.withMachine queue m).completed completion) := by
  unfold completed
  split
  · have machine : ({ s.withMachine queue m with reposting := some completion.ref } :
        SCSISystem).machine = Function.update s.machine queue m := rfl
    have left := workLeft_moved machine
    rw [idle,show repostingLeft none = 0 from rfl] at left
    simp only [repostingLeft] at left
    exact ⟨by omega,rfl,rfl,rfl⟩
  · have machine : (s.withMachine queue m).machine = Function.update s.machine queue m := rfl
    have left := workLeft_moved machine
    rw [idle,show (s.withMachine queue m).reposting = none from idle] at left
    refine ⟨?_,rfl,rfl,by simp [SCSIAction.accepted,withMachine]⟩
    show (s.withMachine queue m).workLeft < s.workLeft
    omega

theorem Worked.advance (inv : MachineInv k lost (s.machine queue))
    (taken : s.advance queue = some s') : Worked s s' := by
  unfold SCSISystem.advance at taken
  split at taken
  case isFalse => cases taken
  rename_i quiet
  simp only [SCSISystem.quiet,Bool.and_eq_true,Option.isNone_iff_eq_none] at quiet
  obtain ⟨m,moved,same⟩ := Option.map_eq_some_iff.mp taken
  obtain ⟨processing,publishing⟩ := Machine.advance_left inv moved
  split at same
  · subst same
    have machine : (s.withMachine queue m).machine = Function.update s.machine queue m := rfl
    have left := workLeft_moved machine
    rw [show (s.withMachine queue m).reposting = s.reposting from rfl] at left
    exact ⟨by omega,rfl,rfl,rfl⟩
  · subst same
    exact completed_left quiet.1.1 processing publishing _

theorem Worked.transport (work : s.WorkLoop (.transport queue a))
    (taken : s.transport queue a = some s') : Worked s s' := by
  unfold SCSISystem.transport at taken
  split at taken
  case isFalse => cases taken
  obtain ⟨m,moved,rfl⟩ := Option.map_eq_some_iff.mp taken
  have machine : (s.withMachine queue m).machine = Function.update s.machine queue m := rfl
  have left := workLeft_moved machine
  rw [show (s.withMachine queue m).reposting = s.reposting from rfl] at left
  cases a with
  | publish =>
    obtain ⟨publishing,processing⟩ := Machine.publish_left moved
    exact ⟨by omega,rfl,rfl,rfl⟩
  | process limit =>
    obtain ⟨processing,publishing⟩ := Machine.process_left moved work
    exact ⟨by omega,rfl,rfl,rfl⟩
  | submit | advance | fetch | complete | suppress | enable | recheck | kick => cases work

theorem Refines.worked (refines : Refines n k events requests first s) (work : s.WorkLoop a)
    (taken : scsiSystemStep a s = some s') : Worked s s' := by
  cases a with
  | repost dma => exact .repost taken
  | advance queue =>
    cases queue with
    | events => exact .advance refines.single.inv taken
    | requests =>
      obtain ⟨_,inv⟩ := refines.requestInv
      exact .advance inv taken
  | transport queue a => exact .transport work taken
  | processParallelTask | writeFromDevice | writeEvent | complete => cases work

/-- A completion that has been invoked on the queue of the events may submit a buffer. -/
theorem Refines.advance_ready (refines : Refines n k events requests first s)
    (taken : s.advance queue = some s') : s'.RepostReady := by
  unfold SCSISystem.advance at taken
  split at taken
  case isFalse => cases taken
  rename_i quiet
  simp only [SCSISystem.quiet,Bool.and_eq_true,Option.isNone_iff_eq_none] at quiet
  obtain ⟨m,moved,same⟩ := Option.map_eq_some_iff.mp taken
  cases logged : m.log[(s.machine queue).log.length]? with
  | none =>
    rw [logged] at same
    obtain rfl : s.withMachine queue m = s' := same
    exact fun pending => absurd quiet.1.1 pending
  | some invocation =>
    rw [logged] at same
    obtain rfl : (s.withMachine queue m).completed invocation.completion = s' := same
    cases queue with
    | events =>
      have may := Machine.invoked_maySubmit moved logged
      unfold completed
      split
      · intro _
        simpa [withMachine] using may
      · exact fun pending => absurd quiet.1.1 pending
    | requests =>
      obtain ⟨_,inv⟩ := refines.requestInv
      obtain ⟨_,silent⟩ | ⟨e,invokes,invoked⟩ := inv.advances moved
      · rw [logged] at silent
        cases silent
      obtain rfl := Option.some.inj (logged.symm.trans invoked)
      have task := (refines.agrees.tasks.owner invokes.member).2
      have other : e.invocation.completion.action ≠ eventCompletedAction := by
        rw [Returned.invocation,task]
        exact (by decide : parallelTaskCompletedAction ≠ eventCompletedAction)
      rw [completed,if_neg other]
      exact fun pending => absurd quiet.1.1 pending

theorem Machine.transport_maySubmit {m m' : Machine} (moved : m.transport a = some m')
    (idle : ∀ limit, a ≠ .process limit) (may : m.maySubmit = true) : m'.maySubmit = true := by
  have quiet := Machine.maySubmit_idle may
  cases a with
  | submit | advance | complete => cases moved
  | process limit => exact absurd rfl (idle limit)
  | publish => simp [Machine.transport,step,Machine.publish,quiet] at moved
  | fetch =>
    obtain ⟨_,_,_,rfl⟩ := Machine.fetch_cases moved
    exact may
  | suppress | enable | recheck | kick =>
    simp only [Machine.transport,step,Machine.suppress,Machine.enable,Machine.recheck,
      Machine.kick] at moved
    split at moved
    · obtain rfl := Option.some.inj moved
      exact may
    · cases moved

theorem Refines.ready_keeps (refines : Refines n k events requests first s) (ready : s.RepostReady)
    (taken : scsiSystemStep a s = some s') : s'.RepostReady := by
  cases a with
  | processParallelTask t multiChoice singleChoice dma =>
    replace taken : s.processParallelTask t multiChoice singleChoice dma = some s' := taken
    unfold SCSISystem.processParallelTask at taken
    split at taken
    case isFalse => cases taken
    rename_i may
    simp only [mayCall,Bool.and_eq_true,Option.isNone_iff_eq_none] at may
    obtain ⟨asked,_,rest⟩ := Option.bind_eq_some_iff.mp taken
    obtain ⟨⟨result,m⟩,_,rest⟩ := Option.bind_eq_some_iff.mp rest
    obtain ⟨⟨response,c⟩,_,rfl⟩ := Option.map_eq_some_iff.mp rest
    exact fun pending => absurd may.1.1 pending
  | repost dma =>
    obtain ⟨eventBuffer,_,rest⟩ := Option.bind_eq_some_iff.mp taken
    obtain ⟨sent,_,rfl⟩ := Option.map_eq_some_iff.mp rest
    exact fun pending => absurd rfl pending
  | advance queue => exact refines.advance_ready taken
  | writeFromDevice identifier data =>
    replace taken : s.writeFromDevice identifier data = some s' := taken
    unfold SCSISystem.writeFromDevice at taken
    split at taken
    case isFalse => cases taken
    obtain rfl := Option.some.inj taken
    exact ready
  | writeEvent eventBuffer event =>
    replace taken : s.writeEvent eventBuffer event = some s' := taken
    unfold SCSISystem.writeEvent at taken
    split at taken
    case isFalse => cases taken
    obtain rfl := Option.some.inj taken
    exact ready
  | complete queue place writtenBytes =>
    obtain ⟨f,_,rest⟩ := Option.bind_eq_some_iff.mp taken
    obtain ⟨m,moved,rfl⟩ := Option.map_eq_some_iff.mp rest
    obtain ⟨_,_,rfl⟩ := Option.map_eq_some_iff.mp moved
    cases queue with
    | events => exact fun pending => ready pending
    | requests => exact ready
  | transport queue a =>
    replace taken : s.transport queue a = some s' := taken
    unfold SCSISystem.transport at taken
    split at taken
    case isFalse => cases taken
    rename_i may
    obtain ⟨m,moved,rfl⟩ := Option.map_eq_some_iff.mp taken
    intro pending
    cases queue with
    | requests => exact ready pending
    | events =>
      suffices m.maySubmit = true by simpa [withMachine] using this
      refine Machine.transport_maySubmit moved ?_ (ready pending)
      rintro limit rfl
      simp only [mayStep,SCSISystem.quiet,Bool.and_eq_true,Option.isNone_iff_eq_none] at may
      exact pending may.1.1.1.1

def Enabled (s : SCSISystem) : Prop :=
  ∃ a, s.Allowed a ∧ s.WorkLoop a ∧ (scsiSystemStep a s).isSome

structure Idle (s : SCSISystem) : Prop where
  reposting : s.reposting = none
  submitting : ∀ queue, (s.machine queue).submitting = none
  processing : ∀ queue, (s.machine queue).processing = none
  unprocessed : ∀ queue, (s.machine queue).unprocessed = []

theorem Idle.workLeft (idle : s.Idle) : s.workLeft = 0 := by
  have nothing (queue : SCSIQueue) : (s.machine queue).processingLeft = 0 ∧
      (s.machine queue).publishingLeft = 0 := by
    have none : (s.machine queue).pending = 0 := by
      rw [Machine.pending_eq,idle.unprocessed queue]
      rfl
    simp [Machine.processingLeft,Machine.publishingLeft,idle.processing queue,
      idle.submitting queue,none]
  simp [SCSISystem.workLeft,nothing,idle.reposting,repostingLeft]

theorem enabled_publish (stage : (s.machine queue).submitting ≠ none) : s.Enabled := by
  obtain ⟨m,moved⟩ := Machine.publish_enabled stage
  have moved : (s.machine queue).transport .publish = some m := moved
  refine ⟨.transport queue .publish,trivial,trivial,?_⟩
  simp [scsiSystemStep,SCSISystem.transport,mayStep,moved]

theorem enabled_advance (inv : MachineInv k lost (s.machine queue)) (quiet : s.quiet = true)
    (idle : (s.machine queue).submitting = none) (busy : (s.machine queue).processing ≠ none) :
    s.Enabled := by
  obtain ⟨call,busy⟩ := Option.ne_none_iff_exists'.mp busy
  obtain ⟨m,moved⟩ := Machine.advance_enabled inv idle busy
  refine ⟨.advance queue,trivial,trivial,?_⟩
  simp [scsiSystemStep,SCSISystem.advance,quiet,moved]

theorem enabled_process (quiet : s.quiet = true)
    (idle : ∀ queue, (s.machine queue).processing = none)
    (submitting : (s.machine queue).submitting = none)
    (work : (s.machine queue).unprocessed ≠ []) : s.Enabled := by
  have may : s.mayStep (.process 0) = true := by simp [mayStep,quiet,idle]
  refine ⟨.transport queue (.process 0),trivial,work,?_⟩
  simp [scsiSystemStep,SCSISystem.transport,may,Machine.transport,step,Machine.process,idle,
    submitting]

/-- There is room for a buffer that comes back to the queue of the events. -/
theorem Refines.enabled_repost (refines : Refines n k events requests first s)
    (ready : s.RepostReady) (inside : s.reposting = some eventBuffer) : s.Enabled := by
  let dma : SubmitDma := ⟨sector.dma,
    (ScatterList.mk [⟨0, s.eventInfoSize⟩] (by simpa using refines.infoSize)).dma, sector.dma⟩
  have contiguous : dma.writable.Contiguous 0 s.eventInfoSize := ScatterList.contiguous _ rfl
  have total := (refines.agrees.events.places.trans refines.queued).length_eq
  rw [inside] at total
  simp only [Option.toList_some,List.length_append,List.length_singleton,List.length_map,
    List.length_range] at total
  have single : (eventCall s.eventInfoSize eventBuffer dma).Single :=
    eventCall_single refines.infoSize contiguous
  obtain ⟨i,q,built,_⟩ := refines.single.accepts (by omega) single
  have may := ready (by simp [inside])
  refine ⟨.repost dma,⟨0,contiguous⟩,trivial,?_⟩
  simp [scsiSystemStep,SCSISystem.repost,inside,Machine.transmit,Machine.submit,may,built,
    submitBuffers]

/-- The work loop is never stuck before it has nothing left to do. -/
theorem Refines.enabled_or_idle (refines : Refines n k events requests first s)
    (ready : s.RepostReady) : s.Enabled ∨ s.Idle := by
  by_cases submitting : ∀ queue, (s.machine queue).submitting = none
  · cases inside : s.reposting with
    | some eventBuffer => exact .inl (refines.enabled_repost ready inside)
    | none =>
      have quiet : s.quiet = true := by simp [SCSISystem.quiet,inside,submitting]
      have invs (queue : SCSIQueue) : ∃ k lost, MachineInv k lost (s.machine queue) := by
        cases queue with
        | events => exact ⟨n,[],refines.single.inv⟩
        | requests => exact ⟨k,refines.requestInv⟩
      by_cases processing : ∀ queue, (s.machine queue).processing = none
      · by_cases unprocessed : ∀ queue, (s.machine queue).unprocessed = []
        · exact .inr ⟨inside,submitting,processing,unprocessed⟩
        · obtain ⟨queue,work⟩ := not_forall.mp unprocessed
          exact .inl (enabled_process quiet processing (submitting queue) work)
      · obtain ⟨queue,busy⟩ := not_forall.mp processing
        obtain ⟨_,_,inv⟩ := invs queue
        exact .inl (enabled_advance inv quiet (submitting queue) busy)
  · obtain ⟨queue,stage⟩ := not_forall.mp submitting
    exact .inl (enabled_publish stage)

/-- Nothing that the device has returned is left: `CompleteParallelTask` has been called for every
task, every event has been handled, and its buffer is in the queue again. -/
structure Finished (n : Nat) (s : SCSISystem) : Prop where
  idle : s.Idle
  completions : s.controller.completions =
    s.answers.map fun answer => answer.1.conclusion answer.2
  handled : s.history.filterMap SCSIAction.handled = s.reported
  posted : ((s.machine .events).inflight.map fun r => r.completion.ref).Perm (List.range n)

theorem Idle.finished (idle : s.Idle) (tasks : s.TasksAnswered) (kept : s.EventsKept n) :
    s.Finished n := by
  refine ⟨idle,?_,?_,?_⟩
  · have all := tasks.waiting
    rw [idle.unprocessed,List.length_nil,Nat.add_zero] at all
    have completions := tasks.completions
    rwa [← all,List.take_length] at completions
  · have handled := kept.handled
    rw [idle.reposting,Machine.waiting,idle.unprocessed] at handled
    simpa using handled.symm
  · have places := kept.places
    rw [idle.reposting] at places
    simpa using places

theorem Started.ready {started : SCSISystem} (begun : Started n events requests started)
    (run : Run scsiSystemStep Allowed started actions s) :
    ∃ k, Refines n k events requests started.controller s ∧ s.RepostReady := by
  obtain ⟨k,refines⟩ := begun.run .nil
  obtain ⟨_,_,_,_,_,initialized⟩ := begun.initialized
  obtain ⟨posted,_,rest⟩ := Option.bind_eq_some_iff.mp initialized
  obtain ⟨c,_,rfl⟩ := Option.map_eq_some_iff.mp rest
  refine ⟨k,run.keeps (fun s => Refines n k events requests _ s ∧ s.RepostReady) ?_
    ⟨refines,fun pending => absurd rfl pending⟩⟩
  exact fun allowed taken before =>
    ⟨before.1.keeps allowed taken,before.1.ready_keeps before.2 taken⟩

end SCSISystem

/-- From any state that a run reaches, the work loop by itself takes a bounded number of steps,
in none of which a task or an event is added, is never stuck before it has taken them all, and has
then handled everything that the device has returned. -/
theorem scsi_work_loop_finishes (n : Nat) (events requests : VirtioVirtqueue) (started : SCSISystem)
    (begun : SCSISystem.Started n events requests started) (actions : List SCSISystemAction)
    (s : SCSISystem) (run : Run scsiSystemStep SCSISystem.Allowed started actions s)
    (loop : List SCSISystemAction) (s' : SCSISystem)
    (alone : Run scsiSystemStep (fun s a => s.Allowed a ∧ s.WorkLoop a) s loop s') :
    loop.length + s'.workLeft ≤ s.workLeft ∧
    (s'.answers = s.answers ∧ s'.reported = s.reported ∧
      s'.history.filterMap SCSIAction.accepted = s.history.filterMap SCSIAction.accepted) ∧
    (s'.workLeft ≠ 0 → s'.Enabled) ∧ (s'.workLeft = 0 → s'.Finished n) := by
  obtain ⟨k,refines,ready⟩ := begun.ready run
  obtain ⟨⟨refines',ready',unchanged⟩,bound⟩ := alone.length_le
    (fun x => x.Refines n k events requests started.controller ∧ x.RepostReady ∧
      x.answers = s.answers ∧ x.reported = s.reported ∧
      x.history.filterMap SCSIAction.accepted = s.history.filterMap SCSIAction.accepted)
    SCSISystem.workLeft
    (fun {x a next} allowed taken ⟨refines,ready,answers,reported,accepted⟩ => by
      have worked := refines.worked allowed.2 taken
      exact ⟨⟨refines.keeps allowed.1 taken,refines.ready_keeps ready taken,
        worked.answers.trans answers,worked.reported.trans reported,
        worked.accepted.trans accepted⟩,worked.less⟩)
    ⟨refines,ready,rfl,rfl,rfl⟩
  refine ⟨bound,unchanged,fun more => ?_,fun done => ?_⟩
  · exact (refines'.enabled_or_idle ready').resolve_right fun idle => more idle.workLeft
  · rcases refines'.enabled_or_idle ready' with ⟨a,_,work,possible⟩ | idle
    · obtain ⟨next,taken⟩ := Option.isSome_iff_exists.mp possible
      have less := (refines'.worked work taken).less
      omega
    · exact idle.finished (refines'.tasksAnswered begun.ledger) refines'.eventsKept

def restOfLoop : List SCSISystemAction :=
  .advance .events :: .advance .events :: .advance .events :: .advance .events ::
    .transport .requests (.process 0) :: List.replicate 7 (.advance .requests)

def checkWorkLoop (s : SCSISystem) : SCSISystemAction → Bool
  | .advance _ => true
  | .transport queue (.process _) => !(s.machine queue).unprocessed.isEmpty
  | _ => false

theorem workLoop_of_check (s : SCSISystem) (a : SCSISystemAction)
    (checked : checkWorkLoop s a = true) : s.Allowed a ∧ s.WorkLoop a := by
  unfold checkWorkLoop at checked
  split at checked
  · exact ⟨trivial,trivial⟩
  · exact ⟨trivial,by simpa [SCSISystem.WorkLoop] using checked⟩
  · cases checked

theorem restOfLoop_played :
    ∃ started s s', startTwoTasks = some started ∧
      Run scsiSystemStep SCSISystem.Allowed started tasksAndEvent s ∧
      Run scsiSystemStep (fun s a => s.Allowed a ∧ s.WorkLoop a) s restOfLoop s' ∧
      s'.workLeft = 0 ∧ s.workLeft ≠ 0 ∧
      s'.controller.completions.map CompleteParallelTask.identifier = [1, 0] := by
  have played : (startTwoTasks.bind fun started =>
      (play scsiSystemStep checkAllowed tasksAndEvent started)).any (fun s =>
        s.workLeft ≠ 0 && (play scsiSystemStep checkWorkLoop restOfLoop s).any fun s' =>
          s'.workLeft = 0 ∧
          s'.controller.completions.map CompleteParallelTask.identifier = [1,0]) = true := by
    decide +kernel
  obtain ⟨started,s,initialized,run,seen⟩ := tasksAndEvent_run played
  rw [Bool.and_eq_true] at seen
  obtain ⟨s',alone,last⟩ := (Option.any_eq_true _ _).mp seen.2
  obtain ⟨done,completions⟩ := of_decide_eq_true last
  exact ⟨started,s,s',initialized,run,run_of_play workLoop_of_check alone,done,
    of_decide_eq_true seen.1,completions⟩

theorem scsi_work_loop_finishes_restOfLoop :
    ∃ s s' : SCSISystem, s.workLeft ≠ 0 ∧ restOfLoop.length ≤ s.workLeft ∧ s'.Finished 2 ∧
      s'.controller.completions.map CompleteParallelTask.identifier = [1, 0] := by
  obtain ⟨started,s,s',initialized,run,alone,done,more,completions⟩ := restOfLoop_played
  obtain ⟨bound,_,_,finished⟩ := scsi_work_loop_finishes 2 _ _ started
    (startTwoTasks_started initialized) tasksAndEvent s run restOfLoop s' alone
  exact ⟨s,s',more,by omega,finished done,completions⟩

end VirtioOsx
