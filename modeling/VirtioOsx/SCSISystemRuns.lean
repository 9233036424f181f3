import VirtioOsx.SCSISystem
import VirtioOsx.SingleBuffers

/-! Runs of the SCSI controller on its queues. Each queue takes the steps of a queue, the
controller those of a controller whose submissions may return anything, and what is in flight on
the queues is what the controller takes to be with the device. -/
namespace VirtioOsx

open Runs
open VirtioSCSIController

namespace SCSIAction

def accepted : SCSIAction → Option ParallelTask
  | .processParallelTask t calls =>
    if calls.submitBuffersToVirtqueue = .success then some t else none
  | _ => none

def answered : SCSIAction → Option (ParallelTask × ReqCmdFromDevice)
  | .parallelTaskCompleted t _ data => some (t, data)
  | _ => none

def handled : SCSIAction → Option (Nat × SCSIEvent)
  | .eventCompleted eventBuffer _ event _ => some (eventBuffer, event)
  | _ => none

def Working : SCSIAction → Prop
  | .processParallelTask _ _ => True
  | .parallelTaskCompleted _ deviceReset _ => deviceReset = false
  | .eventCompleted _ deviceReset _ resubmission =>
    deviceReset = false ∧ resubmission = .success

end SCSIAction

/-- What the controller is called with while both the family and the device work. -/
def Cooperating (c : VirtioSCSIController) (a : SCSIAction) : Prop := Promised c a ∧ a.Working

/-- The request queue has in flight the tasks that the controller takes to be with the device,
and what the device has left in the memory of a task is there until the controller reads it. -/
structure TasksAgree (m : Machine) (outstanding : List ParallelTask) (task : Nat → ParallelTask)
    (fromDevice : Nat → ReqCmdFromDevice) (answers done : List (ParallelTask × ReqCmdFromDevice)) :
    Prop where
  owns : (m.inflight.map Request.completion).Perm (outstanding.map ParallelTask.completion)
  known : ∀ t ∈ outstanding, task t.identifier = t
  answers : answers = done ++ m.waiting.map fun ref => (task ref, fromDevice ref)

namespace TasksAgree

variable {m m' : Machine} {outstanding : List ParallelTask} {task : Nat → ParallelTask}
  {fromDevice : Nat → ReqCmdFromDevice} {answers done : List (ParallelTask × ReqCmdFromDevice)}

theorem owner (agree : TasksAgree m outstanding task fromDevice answers done)
    (member : r ∈ m.inflight) : task r.completion.ref ∈ outstanding ∧
      r.completion = (task r.completion.ref).completion := by
  obtain ⟨t,there,same⟩ := List.mem_map.mp (agree.owns.mem_iff.mp (List.mem_map_of_mem member))
  have known : task r.completion.ref = t := by
    rw [← same]
    exact agree.known t there
  rw [known]
  exact ⟨there,same.symm⟩

/-- No two requests in flight belong to one task. -/
theorem refs_nodup (agree : TasksAgree m outstanding task fromDevice answers done)
    (identifiers : (outstanding.map ParallelTask.identifier).Nodup) :
    (m.inflight.map fun r => r.completion.ref).Nodup := by
  have refs := agree.owns.map VirtioCompletion.ref
  rw [List.map_map,List.map_map] at refs
  exact refs.nodup_iff.mpr identifiers

theorem unseen (agree : TasksAgree m outstanding task fromDevice answers done)
    (unseen : m.Unseen m') : TasksAgree m' outstanding task fromDevice answers done :=
  ⟨(unseen.inflight.symm.map _).trans agree.owns,agree.known,unseen.waiting ▸ agree.answers⟩

/-- The device writes to the memory of a task that it holds, and so of none that is still to be
processed. -/
theorem write (agree : TasksAgree m outstanding task fromDevice answers done)
    (identifiers : (outstanding.map ParallelTask.identifier).Nodup) (held : f ∈ m.owned)
    (data : ReqCmdFromDevice) : TasksAgree m outstanding task
      (Function.update fromDevice f.request.completion.ref data) answers done := by
  refine ⟨agree.owns,agree.known,?_⟩
  rw [agree.answers]
  congr 1
  refine List.map_congr_left fun ref member => ?_
  obtain ⟨e,unprocessed,rfl⟩ := List.mem_map.mp member
  have other := Machine.held_apart (agree.refs_nodup identifiers) held unprocessed
  rw [Function.update_of_ne other.symm]

theorem complete (agree : TasksAgree m outstanding task fromDevice answers done)
    (inflight : m.inflight.Perm m'.inflight)
    (unprocessed : m'.unprocessed = m.unprocessed ++ [⟨f, writtenBytes⟩]) :
    TasksAgree m' outstanding task fromDevice
      (answers ++ [(task f.request.completion.ref, fromDevice f.request.completion.ref)]) done := by
  refine ⟨(inflight.symm.map _).trans agree.owns,agree.known,?_⟩
  simp [agree.answers,Machine.waiting,unprocessed]

theorem completed (agree : TasksAgree m outstanding task fromDevice answers done)
    (invokes : m.Invokes e m') (named : ref = e.fetched.request.completion.ref) :
    TasksAgree m' (outstanding.erase (task ref)) task fromDevice answers
      (done ++ [(task ref, fromDevice ref)]) := by
  subst named
  obtain ⟨there,completion⟩ := agree.owner invokes.member
  refine ⟨?_,fun t member => agree.known t (List.mem_of_mem_erase member),?_⟩
  · have before := (invokes.inflight.map Request.completion).symm.trans agree.owns
    have split := (List.perm_cons_erase there).map ParallelTask.completion
    rw [List.map_cons,completion] at before
    exact (before.trans split).cons_inv
  · have answers := agree.answers
    rw [invokes.waiting] at answers
    rw [List.append_assoc]
    exact answers

/-- A task that the device does not have is written down, and may have been submitted. -/
theorem handed (agree : TasksAgree m outstanding task fromDevice answers done) {t : ParallelTask}
    (fresh : t.identifier ∉ outstanding.map ParallelTask.identifier)
    {call : SubmitCall} (transmitted : Transmitted m call result m')
    (completion : call.completion = t.completion) :
    TasksAgree m' (if result = .success then t :: outstanding else outstanding)
      (Function.update task t.identifier t) fromDevice answers done := by
  have older : ∀ other ∈ outstanding, other.identifier ≠ t.identifier := fun other member same =>
    fresh (same ▸ List.mem_map_of_mem member)
  have waiting := Machine.waiting_of_unprocessed transmitted.unprocessed
  refine ⟨?_,?_,?_⟩
  · rcases transmitted.outcome with ⟨rfl,r,same,inflight⟩ | ⟨failed,_,inflight⟩
    · rw [if_pos rfl]
      refine (inflight.map Request.completion).trans ?_
      rw [List.map_cons,List.map_cons,same,completion]
      exact agree.owns.cons _
    · rw [if_neg failed,inflight]
      exact agree.owns
  · have before (other : ParallelTask) (member : other ∈ outstanding) :
        Function.update task t.identifier t other.identifier = other := by
      rw [Function.update_of_ne (older other member)]
      exact agree.known other member
    split
    · intro other member
      rcases List.mem_cons.mp member with rfl | member
      · exact Function.update_self _ _ _
      · exact before other member
    · exact before
  · rw [agree.answers,waiting]
    congr 1
    refine List.map_congr_left fun ref member => ?_
    obtain ⟨e,unprocessed,rfl⟩ := List.mem_map.mp member
    obtain ⟨there,same⟩ := agree.owner (Machine.unprocessed_inflight unprocessed)
    have named : e.fetched.request.completion.ref ≠ t.identifier := by
      rw [same]
      exact older _ there
    rw [Function.update_of_ne named]

end TasksAgree

/-- The event queue has in flight the buffers that the controller takes to be there, except for
the one that is being submitted again, and the events are in the buffers until they are read. -/
structure EventsAgree (m : Machine) (queued : List Nat) (reposting : Option Nat)
    (eventData : Nat → SCSIEvent) (reported done : List (Nat × SCSIEvent)) : Prop where
  owns : (reposting.toList.map eventCompletion ++ m.inflight.map Request.completion).Perm
    (queued.map eventCompletion)
  reported : reported = done ++ (reposting.toList ++ m.waiting).map fun ref => (ref, eventData ref)

namespace EventsAgree

variable {m m' : Machine} {queued : List Nat} {reposting : Option Nat} {eventData : Nat → SCSIEvent}
  {reported done : List (Nat × SCSIEvent)}

theorem posted (agree : EventsAgree m queued reposting eventData reported done)
    (member : r ∈ m.inflight) : r.completion = eventCompletion r.completion.ref := by
  have there := agree.owns.mem_iff.mp (List.mem_append_right _ (List.mem_map_of_mem member))
  obtain ⟨eventBuffer,_,same⟩ := List.mem_map.mp there
  rw [← same]
  rfl

theorem places (agree : EventsAgree m queued reposting eventData reported done) :
    (reposting.toList ++ m.inflight.map fun r => r.completion.ref).Perm queued := by
  have refs := agree.owns.map VirtioCompletion.ref
  have same (list : List Nat) : list.map (VirtioCompletion.ref ∘ eventCompletion) = list :=
    List.map_id'' (fun _ => rfl) list
  rw [List.map_append,List.map_map,List.map_map,List.map_map,same,same] at refs
  exact refs

theorem unseen (agree : EventsAgree m queued reposting eventData reported done)
    (unseen : m.Unseen m') : EventsAgree m' queued reposting eventData reported done :=
  ⟨((unseen.inflight.symm.map _).append_left _).trans agree.owns,unseen.waiting ▸ agree.reported⟩

theorem write (agree : EventsAgree m queued reposting eventData reported done)
    (distinct : queued.Nodup) (held : f ∈ m.owned) (event : SCSIEvent) :
    EventsAgree m queued reposting (Function.update eventData f.request.completion.ref event)
      reported done := by
  refine ⟨agree.owns,?_⟩
  obtain ⟨_,refs,apart⟩ := List.nodup_append.mp (agree.places.nodup_iff.mpr distinct)
  rw [agree.reported]
  congr 1
  refine List.map_congr_left fun ref member => ?_
  have other : ref ≠ f.request.completion.ref := by
    rcases List.mem_append.mp member with reposting | waiting
    · exact apart _ reposting _ (List.mem_map_of_mem (Machine.owned_inflight held))
    · obtain ⟨e,unprocessed,rfl⟩ := List.mem_map.mp waiting
      exact (Machine.held_apart refs held unprocessed).symm
  rw [Function.update_of_ne other]

theorem complete (agree : EventsAgree m queued reposting eventData reported done)
    (inflight : m.inflight.Perm m'.inflight)
    (unprocessed : m'.unprocessed = m.unprocessed ++ [⟨f, writtenBytes⟩]) :
    EventsAgree m' queued reposting eventData
      (reported ++ [(f.request.completion.ref, eventData f.request.completion.ref)]) done := by
  refine ⟨((inflight.symm.map _).append_left _).trans agree.owns,?_⟩
  simp [agree.reported,Machine.waiting,unprocessed]

theorem completed (agree : EventsAgree m queued none eventData reported done)
    (invokes : m.Invokes e m') : EventsAgree m' queued (some e.fetched.request.completion.ref)
      eventData reported done := by
  have completion := agree.posted invokes.member
  refine ⟨?_,?_⟩
  · have before := (invokes.inflight.map Request.completion).symm.trans agree.owns
    rw [List.map_cons,completion] at before
    exact before
  · have reported := agree.reported
    rw [invokes.waiting] at reported
    exact reported

/-- The buffer is in the queue again, and its event has been handled. -/
theorem reposted (agree : EventsAgree m queued (some eventBuffer) eventData reported done)
    {call : SubmitCall} (transmitted : Transmitted m call .success m')
    (completion : call.completion = eventCompletion eventBuffer) :
    EventsAgree m' (eventBuffer :: queued.erase eventBuffer) none eventData reported
      (done ++ [(eventBuffer, eventData eventBuffer)]) := by
  have waiting := Machine.waiting_of_unprocessed transmitted.unprocessed
  obtain ⟨r,same,inflight⟩ := transmitted.accepted
  have there : eventBuffer ∈ queued := agree.places.mem_iff.mp List.mem_cons_self
  refine ⟨?_,?_⟩
  · refine (inflight.map Request.completion).trans ?_
    rw [List.map_cons,same,completion]
    exact agree.owns.trans ((List.perm_cons_erase there).map eventCompletion)
  · rw [agree.reported,waiting]
    simp

end EventsAgree

theorem eventCall_single {eventInfoSize : Nat} {dma : SubmitDma} (infoSize : 0 < eventInfoSize)
    (contiguous : dma.writable.Contiguous address eventInfoSize) :
    (eventCall eventInfoSize eventBuffer dma).Single := by
  refine ⟨rfl,⟨eventBuffer, eventInfoSize⟩,address,?_,contiguous⟩
  simp [SubmitCall.writableBuffer,eventCall,describedBuffer,Option.filter,
    Nat.pos_iff_ne_zero.mp infoSize]

namespace SCSISystem

variable {s s' : SCSISystem}

/-- The family keeps to what it was told, the submission of a task does not meet the defects of
the transport, and event buffers are contiguous. -/
def Allowed (s : SCSISystem) : SCSISystemAction → Prop
  | .processParallelTask t multiChoice singleChoice dma =>
    Promised s.controller (.processParallelTask t ⟨multiChoice, singleChoice, .success⟩) ∧
      ∀ asked, s.submission (.processParallelTask t multiChoice singleChoice dma) = some asked →
        ¬Corrupting (s.machine .requests).queue asked.2 ∧
          Publishes (s.machine .requests) asked.2
  | .repost dma => ∃ address, dma.writable.Contiguous address s.eventInfoSize
  | _ => True

structure Agrees (s : SCSISystem) : Prop where
  tasks : TasksAgree (s.machine .requests) s.controller.outstanding s.task s.fromDevice s.answers
    (s.history.filterMap SCSIAction.answered)
  events : EventsAgree (s.machine .events) s.controller.queuedEvents s.reposting s.eventData
    s.reported (s.history.filterMap SCSIAction.handled)

/-- What a step of the whole system is to the queues: at most one step of each, and a submission
only of what the controller submits. -/
structure QueuesMove (n : Nat) (s : SCSISystem) (act : SCSISystemAction) (s' : SCSISystem) :
    Prop where
  moves : ∀ queue, QueueMove (fun call => s.submission act = some (queue, call))
    (s.machine queue) (s'.machine queue)
  single : SingleQueue n (s'.machine .events)

theorem QueuesMove.stays (single : SingleQueue n (s.machine .events))
    (machine : s'.machine = s.machine) : QueuesMove n s act s' :=
  ⟨fun queue => .stays (congrFun machine queue),machine ▸ single⟩

theorem QueuesMove.of_move {m : Machine} (single : SingleQueue n (s.machine .events))
    (move : QueueMove (fun call => s.submission act = some (queue, call)) (s.machine queue) m)
    (kept : queue = .events → SingleQueue n m)
    (machine : s'.machine = Function.update s.machine queue m) : QueuesMove n s act s' := by
  refine ⟨fun other => ?_,?_⟩
  · rw [machine]
    by_cases same : other = queue
    · subst same
      rwa [Function.update_self]
    · rw [Function.update_of_ne same]
      exact .stays rfl
  · rw [machine]
    by_cases same : .events = queue
    · subst same
      rw [Function.update_self]
      exact kept rfl
    · rwa [Function.update_of_ne same]

theorem QueuesMove.silent {m : Machine} (single : SingleQueue n (s.machine .events))
    (moved : step a (s.machine queue) = some m) (quiet : ∀ call, a ≠ .submit call)
    (machine : s'.machine = Function.update s.machine queue m) : QueuesMove n s act s' := by
  refine .of_move single (.silent a moved quiet) (fun same => ?_) machine
  subst same
  exact single.steps moved quiet

structure Stepped (n : Nat) (s : SCSISystem) (act : SCSISystemAction) (s' : SCSISystem) :
    Prop where
  driven : ∃ actions, s'.history = s.history ++ actions ∧
    Run scsiStep Cooperating s.controller actions s'.controller
  queued : s'.controller.queuedEvents.Perm s.controller.queuedEvents
  released : s'.controller.releasedEvents = s.controller.releasedEvents
  infoSize : s'.eventInfoSize = s.eventInfoSize
  queues : QueuesMove n s act s'
  agrees : s'.Agrees

theorem Stepped.undriven (controller : s'.controller = s.controller)
    (history : s'.history = s.history) (infoSize : s'.eventInfoSize = s.eventInfoSize)
    (queues : QueuesMove n s act s') (agrees : s'.Agrees) : Stepped n s act s' where
  driven := ⟨[],by rw [history,List.append_nil],controller ▸ .nil⟩
  queued := controller ▸ .refl _
  released := by rw [controller]
  infoSize := infoSize
  queues := queues
  agrees := agrees

/-- A step of one queue that the controller does not see. -/
theorem Agrees.unseen (agrees : s.Agrees) (unseen : (s.machine queue).Unseen m) :
    (s.withMachine queue m).Agrees := by
  cases queue with
  | events => exact ⟨agrees.tasks,agrees.events.unseen unseen⟩
  | requests => exact ⟨agrees.tasks.unseen unseen,agrees.events⟩

theorem Agrees.transport (agrees : s.Agrees) (single : SingleQueue n (s.machine .events))
    (inv : MachineInv k lost (s.machine queue)) (taken : s.transport queue a = some s') :
    Stepped n s (.transport queue a) s' := by
  unfold SCSISystem.transport at taken
  split at taken
  case isFalse => cases taken
  obtain ⟨m,moved,rfl⟩ := Option.map_eq_some_iff.mp taken
  obtain ⟨moved,noSubmit,_,unseen⟩ := inv.transports moved
  exact .undriven rfl rfl rfl (.silent single moved noSubmit rfl) (agrees.unseen unseen)

theorem Agrees.complete (agrees : s.Agrees) (single : SingleQueue n (s.machine .events))
    (inv : MachineInv k lost (s.machine queue))
    (taken : s.complete queue place writtenBytes = some s') :
    Stepped n s (.complete queue place writtenBytes) s' := by
  obtain ⟨f,held,rest⟩ := Option.bind_eq_some_iff.mp taken
  obtain ⟨m,moved,rfl⟩ := Option.map_eq_some_iff.mp rest
  obtain ⟨inflight,f',again,unprocessed⟩ := inv.completes moved
  obtain rfl := Option.some.inj (held.symm.trans again)
  have moved : step (.complete place writtenBytes) (s.machine queue) = some m := moved
  cases queue with
  | events =>
    refine .undriven rfl rfl rfl (.silent single moved (by simp) rfl) ?_
    exact ⟨agrees.tasks,agrees.events.complete inflight unprocessed⟩
  | requests =>
    refine .undriven rfl rfl rfl (.silent single moved (by simp) rfl) ?_
    exact ⟨agrees.tasks.complete inflight unprocessed,agrees.events⟩

theorem Agrees.writeFromDevice (agrees : s.Agrees) (single : SingleQueue n (s.machine .events))
    (pools : PoolInv s.controller) (taken : s.writeFromDevice identifier data = some s') :
    Stepped n s (.writeFromDevice identifier data) s' := by
  unfold SCSISystem.writeFromDevice at taken
  split at taken
  case isFalse => cases taken
  rename_i held
  obtain rfl := Option.some.inj taken
  simp only [holds,List.any_eq_true,beq_iff_eq] at held
  obtain ⟨f,held,rfl⟩ := held
  refine .undriven rfl rfl rfl (.stays single rfl) ?_
  exact ⟨agrees.tasks.write pools.identifiers held _,agrees.events⟩

theorem Agrees.writeEvent (agrees : s.Agrees) (single : SingleQueue n (s.machine .events))
    (distinct : s.controller.queuedEvents.Nodup)
    (taken : s.writeEvent eventBuffer event = some s') :
    Stepped n s (.writeEvent eventBuffer event) s' := by
  unfold SCSISystem.writeEvent at taken
  split at taken
  case isFalse => cases taken
  rename_i held
  obtain rfl := Option.some.inj taken
  simp only [holds,List.any_eq_true,beq_iff_eq] at held
  obtain ⟨f,held,rfl⟩ := held
  refine .undriven rfl rfl rfl (.stays single rfl) ?_
  exact ⟨agrees.tasks,agrees.events.write distinct held event⟩

/-- The completion of a task is a step of the controller, that of an event buffer only begins
one. -/
theorem Agrees.invokes (agrees : s.Agrees) (single : SingleQueue n (s.machine .events))
    (idle : s.reposting = none) (moved : step .advance (s.machine queue) = some m)
    (invokes : (s.machine queue).Invokes e m) :
    Stepped n s (.advance queue)
      ((s.withMachine queue m).completed e.fetched.request.completion) := by
  have queues (s' : SCSISystem) (machine : s'.machine = Function.update s.machine queue m) :
      QueuesMove n s (.advance queue) s' := .silent single moved (by simp) machine
  cases queue with
  | events =>
    have events := agrees.events
    rw [idle] at events
    have action : e.fetched.request.completion.action = eventCompletedAction := by
      rw [events.posted invokes.member]
      rfl
    rw [completed,if_pos action]
    exact .undriven rfl rfl rfl (queues _ rfl) ⟨agrees.tasks,events.completed invokes⟩
  | requests =>
    obtain ⟨there,completion⟩ := agrees.tasks.owner invokes.member
    obtain ⟨ref,named⟩ : ∃ ref, ref = e.fetched.request.completion.ref := ⟨_,rfl⟩
    have tasks := agrees.tasks.completed invokes named
    rw [← named] at there completion
    have other : e.fetched.request.completion.action ≠ eventCompletedAction := by
      rw [completion]
      exact (by decide : parallelTaskCompletedAction ≠ eventCompletedAction)
    rw [completed,if_neg other,← named]
    dsimp only [withMachine]
    obtain ⟨c,called⟩ : ∃ c, c = s.controller.parallelTaskCompleted (s.task ref) false
      (s.fromDevice ref) := ⟨_,rfl⟩
    obtain ⟨present,completions,frame⟩ :=
      parallelTaskCompleted_frame s.controller (s.task ref) false (s.fromDevice ref)
    obtain ⟨outstanding,queued,released⟩ : c.outstanding =
        s.controller.outstanding.erase (s.task ref) ∧ c.queuedEvents = s.controller.queuedEvents ∧
        c.releasedEvents = s.controller.releasedEvents := by
      rw [called,frame]
      exact ⟨rfl,rfl,rfl⟩
    rw [← called]
    refine ⟨⟨[.parallelTaskCompleted (s.task ref) false (s.fromDevice ref)],rfl,
      .cons ⟨trivial,rfl⟩ ((if_pos there).trans (congrArg some called.symm)) .nil⟩,queued ▸ .refl _,
      released,rfl,queues _ rfl,?_,?_⟩
    · rw [outstanding,List.filterMap_append]
      exact tasks
    · rw [queued,List.filterMap_append]
      exact (List.append_nil _).symm ▸ agrees.events

theorem Agrees.advance (agrees : s.Agrees) (single : SingleQueue n (s.machine .events))
    (inv : MachineInv k lost (s.machine queue)) (taken : s.advance queue = some s') :
    Stepped n s (.advance queue) s' := by
  unfold SCSISystem.advance at taken
  split at taken
  case isFalse => cases taken
  rename_i quiet
  simp only [SCSISystem.quiet,Bool.and_eq_true,Option.isNone_iff_eq_none] at quiet
  obtain ⟨m,moved,same⟩ := Option.map_eq_some_iff.mp taken
  obtain ⟨unseen,silent⟩ | ⟨e,invokes,invoked⟩ := inv.advances moved
  · rw [silent] at same
    subst same
    have moved : step .advance (s.machine queue) = some m := moved
    exact .undriven rfl rfl rfl (.silent single moved (by simp) rfl) (agrees.unseen unseen)
  · rw [invoked] at same
    subst same
    exact agrees.invokes single quiet.1.1 moved invokes

theorem Agrees.processParallelTask (agrees : s.Agrees) (single : SingleQueue n (s.machine .events))
    (allowed : s.Allowed (.processParallelTask t multiChoice singleChoice dma))
    (taken : s.processParallelTask t multiChoice singleChoice dma = some s') :
    Stepped n s (.processParallelTask t multiChoice singleChoice dma) s' := by
  obtain ⟨promised,reliable⟩ := allowed
  unfold SCSISystem.processParallelTask at taken
  split at taken
  case isFalse => cases taken
  obtain ⟨asked,submitted,rest⟩ := Option.bind_eq_some_iff.mp taken
  obtain ⟨⟨result,m⟩,sent,rest⟩ := Option.bind_eq_some_iff.mp rest
  obtain ⟨⟨response,c⟩,processed,rfl⟩ := Option.map_eq_some_iff.mp rest
  obtain ⟨sound,published⟩ := reliable asked submitted
  have transmitted := Machine.transmit_cases published sent
  obtain ⟨queue,call⟩ := asked
  obtain ⟨rfl,completion⟩ : queue = .requests ∧ call.completion = t.completion := by
    obtain ⟨multi,_,rest⟩ := Option.bind_eq_some_iff.mp submitted
    obtain ⟨sub,_,same⟩ := Option.map_eq_some_iff.mp rest
    obtain ⟨rfl,rfl⟩ := Prod.mk.inj same
    exact ⟨rfl,rfl⟩
  obtain ⟨_,queued,released⟩ := processParallelTaskInGate_frame processed
  have outstanding : c.outstanding =
      if result = .success then t :: s.controller.outstanding else s.controller.outstanding := by
    obtain ⟨multi,sub,_,_,_,ended⟩ := processParallelTaskInGate_cases processed
    unfold submitTask at ended
    split at ended
    · rename_i success
      rw [← (Prod.mk.inj ended).2,if_pos success]
    · rename_i failed
      rw [← (Prod.mk.inj ended).2,if_neg failed]
      rfl
  refine ⟨⟨[.processParallelTask t ⟨multiChoice, singleChoice, result⟩],rfl,
    .cons ⟨promised,trivial⟩ (by simp [scsiStep,processed]) .nil⟩,?_,released,rfl,?_,?_,?_⟩
  · exact queued ▸ .refl _
  · refine .of_move single (.submits transmitted sound submitted) ?_ rfl
    rintro ⟨⟩
  · have tasks := agrees.tasks.handed promised.2 transmitted completion
    dsimp only [withMachine]
    rw [outstanding,List.filterMap_append]
    exact (List.append_nil _).symm ▸ tasks
  · dsimp only [withMachine]
    rw [queued,List.filterMap_append]
    exact (List.append_nil _).symm ▸ agrees.events

theorem Agrees.repost (agrees : s.Agrees) (single : SingleQueue n (s.machine .events))
    (buffers : s.controller.queuedEvents.length = n) (infoSize : 0 < s.eventInfoSize)
    (allowed : s.Allowed (.repost dma)) (taken : s.repost dma = some s') :
    Stepped n s (.repost dma) s' := by
  obtain ⟨eventBuffer,inside,rest⟩ := Option.bind_eq_some_iff.mp taken
  obtain ⟨⟨result,m⟩,sent,rfl⟩ := Option.map_eq_some_iff.mp rest
  obtain ⟨address,contiguous⟩ := allowed
  have events := agrees.events
  rw [inside] at events
  have there : eventBuffer ∈ s.controller.queuedEvents :=
    events.places.mem_iff.mp List.mem_cons_self
  have fewer : (s.machine .events).inflight.length < n := by
    have total := events.places.length_eq
    simp only [Option.toList_some,List.length_append,List.length_singleton,List.length_map] at total
    omega
  obtain ⟨rfl,transmitted,sound,after⟩ :=
    single.transmitted fewer (eventCall_single infoSize contiguous) sent
  obtain ⟨c,called⟩ : ∃ c, c = s.controller.eventCompleted eventBuffer false
    (s.eventData eventBuffer) .success := ⟨_,rfl⟩
  obtain ⟨queued,released⟩ : c.queuedEvents = eventBuffer :: s.controller.queuedEvents.erase eventBuffer ∧
      c.releasedEvents = s.controller.releasedEvents := by
    have events := eventCompleted_events s.controller eventBuffer false (s.eventData eventBuffer)
      .success
    rw [called]
    simpa using events
  have outstanding : c.outstanding = s.controller.outstanding := by
    obtain ⟨_,_,_,frame⟩ := eventCompleted_frame s.controller eventBuffer false
      (s.eventData eventBuffer) .success
    rw [called,frame]
  dsimp only [withMachine]
  rw [← called]
  refine ⟨⟨[.eventCompleted eventBuffer false (s.eventData eventBuffer) .success],rfl,
    .cons ⟨trivial,rfl,rfl⟩ ((if_pos there).trans (congrArg some called.symm)) .nil⟩,?_,released,rfl,?_,?_,?_⟩
  · rw [queued]
    exact (List.perm_cons_erase there).symm
  · refine .of_move single (.submits transmitted sound ?_) (fun _ => after) rfl
    simp [submission,inside]
  · rw [outstanding,List.filterMap_append]
    exact (List.append_nil _).symm ▸ agrees.tasks
  · rw [queued,List.filterMap_append]
    exact events.reposted transmitted rfl

/-- The queues are in runs of their own and the controller in one of its own, and they agree on
what is under way. Every event buffer is in the queue or on its way back to it. -/
structure Refines (n k : Nat) (events requests : VirtioVirtqueue) (first : VirtioSCSIController)
    (s : SCSISystem) : Prop where
  controller : Run scsiStep Cooperating first s.history s.controller
  pools : PoolInv s.controller
  queued : s.controller.queuedEvents.Perm (List.range n)
  released : s.controller.releasedEvents = []
  infoSize : 0 < s.eventInfoSize
  single : SingleQueue n (s.machine .events)
  requestInv : ∃ lost, MachineInv k lost (s.machine .requests)
  eventRun : ∃ steps, Run step Sound (.start events) steps (s.machine .events)
  requestRun : ∃ steps, Run step Sound (.start requests) steps (s.machine .requests)
  agrees : s.Agrees

variable {events requests : VirtioVirtqueue} {first : VirtioSCSIController}

theorem Refines.stepped (refines : Refines n k events requests first s)
    (allowed : s.Allowed a) (taken : scsiSystemStep a s = some s') : Stepped n s a s' := by
  have agrees := refines.agrees
  have single := refines.single
  have buffers : s.controller.queuedEvents.length = n := by simpa using refines.queued.length_eq
  have inv (queue : SCSIQueue) : ∃ k lost, MachineInv k lost (s.machine queue) := by
    cases queue with
    | events => exact ⟨n,[],single.inv⟩
    | requests => exact ⟨k,refines.requestInv⟩
  cases a with
  | processParallelTask t multiChoice singleChoice dma =>
    exact agrees.processParallelTask single allowed taken
  | repost dma => exact agrees.repost single buffers refines.infoSize allowed taken
  | advance queue =>
    obtain ⟨_,_,inv⟩ := inv queue
    exact agrees.advance single inv taken
  | writeFromDevice identifier data => exact agrees.writeFromDevice single refines.pools taken
  | writeEvent eventBuffer event =>
    exact agrees.writeEvent single (refines.queued.nodup_iff.mpr List.nodup_range) taken
  | complete queue position writtenBytes =>
    obtain ⟨_,_,inv⟩ := inv queue
    exact agrees.complete single inv taken
  | transport queue a =>
    obtain ⟨_,_,inv⟩ := inv queue
    exact agrees.transport single inv taken

theorem Refines.keeps (refines : Refines n k events requests first s)
    (allowed : s.Allowed a) (taken : scsiSystemStep a s = some s') :
    Refines n k events requests first s' := by
  have stepped := refines.stepped allowed taken
  obtain ⟨actions,history,driven⟩ := stepped.driven
  obtain ⟨eventSteps,eventRun⟩ := refines.eventRun
  obtain ⟨requestSteps,requestRun⟩ := refines.requestRun
  obtain ⟨lost,requestInv⟩ := refines.requestInv
  obtain ⟨eventMoves,eventMove⟩ := (stepped.queues.moves .events).run
  obtain ⟨requestMoves,requestMove⟩ := (stepped.queues.moves .requests).run
  refine ⟨history ▸ refines.controller.append driven,?_,stepped.queued.trans refines.queued,
    stepped.released.trans refines.released,stepped.infoSize ▸ refines.infoSize,
    stepped.queues.single,machineInv_run requestInv requestMove,⟨_,eventRun.append eventMove⟩,
    ⟨_,requestRun.append requestMove⟩,stepped.agrees⟩
  exact Run.keeps PoolInv (fun good taken inv => inv.keeps good.1 taken) driven refines.pools

/-- One buffer is submitted and published while the device does nothing. -/
theorem performed {m m' : Machine} (queue : SingleQueue n m) (fewer : m.inflight.length < n)
    {call : SubmitCall} (single : call.Single) (performed : m.perform call = some (result, m')) :
    result = .success ∧ SingleQueue n m' ∧ (∃ steps, Run step Sound m steps m') ∧
      (m'.inflight.map Request.completion).Perm
        (call.completion :: m.inflight.map Request.completion) ∧
      m'.unprocessed = m.unprocessed := by
  obtain ⟨⟨code,m₁⟩,sent,rest⟩ := Option.bind_eq_some_iff.mp performed
  obtain ⟨rfl,transmitted,sound,after⟩ := queue.transmitted fewer single sent
  obtain ⟨r,completion,inflight⟩ := transmitted.accepted
  have first : Run step Sound m [.submit call] m₁ := by
    refine .cons ?_ transmitted.moved .nil
    rintro other same
    obtain rfl := Action.submit.inj same
    exact sound
  have owns := inflight.map Request.completion
  rw [List.map_cons,completion] at owns
  have publishes {m m' : Machine} (queue : SingleQueue n m) (moved : m.publish = some m') :
      SingleQueue n m' ∧ m.Unseen m' ∧ Run step Sound m [.publish] m' := by
    have moved : m.transport .publish = some m' := moved
    obtain ⟨moved,quiet,_,unseen⟩ := queue.inv.transports moved
    exact ⟨queue.steps moved quiet,unseen,.cons (fun call same => absurd same (quiet call)) moved
      .nil⟩
  split at rest
  · obtain ⟨rfl,rfl⟩ := Prod.mk.inj (Option.some.inj rest)
    exact ⟨rfl,after,⟨_,first⟩,owns,transmitted.unprocessed⟩
  · obtain ⟨m₄,published,same⟩ := Option.map_eq_some_iff.mp rest
    obtain ⟨rfl,rfl⟩ := Prod.mk.inj same
    obtain ⟨m₃,published,third⟩ := Option.bind_eq_some_iff.mp published
    obtain ⟨m₂,one,two⟩ := Option.bind_eq_some_iff.mp published
    obtain ⟨after,unseen₁,run₁⟩ := publishes after one
    obtain ⟨after,unseen₂,run₂⟩ := publishes after two
    obtain ⟨after,unseen₃,run₃⟩ := publishes after third
    refine ⟨rfl,after,⟨_,((first.append run₁).append run₂).append run₃⟩,?_,?_⟩
    · have same := unseen₁.inflight.trans (unseen₂.inflight.trans unseen₃.inflight)
      exact (same.symm.map _).trans owns
    · rw [unseen₃.unprocessed,unseen₂.unprocessed,unseen₁.unprocessed,transmitted.unprocessed]

/-- The loop of `InitializeController` fills the event queue. -/
theorem postEvents_spec {m m' : Machine} {eventInfoSize : Nat} {dma : Nat → SubmitDma}
    (infoSize : 0 < eventInfoSize)
    (contiguous : ∀ i, ∃ address, (dma i).writable.Contiguous address eventInfoSize)
    (queue : SingleQueue n m) (room : i + rest = n)
    (owns : (m.inflight.map Request.completion).Perm ((List.range i).map eventCompletion))
    (posted : postEvents eventInfoSize dma rest i m = some (results, m')) :
    results = List.replicate rest .success ∧ SingleQueue n m' ∧
      (∃ steps, Run step Sound m steps m') ∧
      (m'.inflight.map Request.completion).Perm ((List.range n).map eventCompletion) ∧
      m'.unprocessed = m.unprocessed := by
  induction rest generalizing i m results with
  | zero =>
    obtain ⟨rfl,rfl⟩ := Prod.mk.inj (Option.some.inj posted)
    obtain rfl : i = n := room
    exact ⟨rfl,queue,⟨[],.nil⟩,owns,rfl⟩
  | succ rest ih =>
    obtain ⟨⟨result,m₁⟩,one,others⟩ := Option.bind_eq_some_iff.mp posted
    obtain ⟨address,contiguous'⟩ := contiguous i
    have count := owns.length_eq
    simp only [List.length_map,List.length_range] at count
    have buffer : (eventCall eventInfoSize i (dma i)).Single := eventCall_single infoSize contiguous'
    obtain ⟨rfl,queue,⟨steps,run⟩,more,unprocessed⟩ := performed queue (by omega) buffer one
    rw [if_pos rfl] at others
    obtain ⟨⟨later,m₂⟩,tail,same⟩ := Option.map_eq_some_iff.mp others
    obtain ⟨rfl,rfl⟩ := Prod.mk.inj same
    have owns : (m₁.inflight.map Request.completion).Perm
        ((List.range (i + 1)).map eventCompletion) := by
      rw [List.range_succ,List.map_append]
      exact more.trans ((owns.cons _).trans (List.perm_append_singleton _ _).symm)
    obtain ⟨rfl,queue,⟨steps',run'⟩,owns,same⟩ := ih queue (by omega) owns tail
    exact ⟨rfl,queue,⟨_,run.append run'⟩,owns,same.trans unprocessed⟩

theorem submitEvents_all (results : Nat → IOReturn) (all : ∀ j < i + rest, results j = .success) :
    submitEvents results rest i = (List.range' i rest, []) := by
  induction rest generalizing i with
  | zero => rfl
  | succ rest ih =>
    rw [submitEvents,if_pos (all i (by omega)),ih fun j below => all j (by omega)]
    rfl

theorem refines_start {setup : ControllerSetup} {eventInfoSize : Nat} {dma : Nat → SubmitDma}
    {started : SCSISystem} (eventInv : MachineInv n [] (.start events))
    (direct : events.indirectDescriptors = false) (requestInv : MachineInv k [] (.start requests))
    (infoSize : 0 < eventInfoSize)
    (contiguous : ∀ i, ∃ address, (dma i).writable.Contiguous address eventInfoSize)
    (initialized : start setup events requests eventInfoSize dma = some started) :
    Refines n k events requests started.controller started := by
  obtain ⟨⟨results,posted⟩,looped,rest⟩ := Option.bind_eq_some_iff.mp initialized
  obtain ⟨c,made,rfl⟩ := Option.map_eq_some_iff.mp rest
  have size : events.numEntries = n := eventInv.size
  rw [size] at looped made
  have empty : ((Machine.start events).inflight.map Request.completion).Perm
      ((List.range 0).map eventCompletion) := by
    simp [Machine.start,Machine.inflight,Machine.unconsumed,Machine.unprocessed,unpublished]
  obtain ⟨rfl,single,run,owns,unprocessed⟩ := postEvents_spec infoSize contiguous
    (.start eventInv direct) (Nat.zero_add n) empty looped
  obtain ⟨present,frame⟩ := startController_frame c
  have fresh := initializeController_spec made
  have pools := initializeController_pools made
  have events : (c.queuedEvents, c.releasedEvents) =
      submitEvents (fun i => (List.replicate n .success).getD i .busy) n 0 := fresh.events
  rw [submitEvents_all _ fun j below => by simp [show j < n by omega]] at events
  obtain ⟨queued,released⟩ := Prod.mk.inj events
  rw [← List.range_eq_range'] at queued
  have waiting : posted.waiting = [] := by
    rw [Machine.waiting,unprocessed]
    rfl
  refine ⟨.nil,?_,?_,?_,infoSize,single,⟨[],requestInv⟩,run,⟨[],.nil⟩,⟨⟨?_,?_,rfl⟩,?_,?_⟩⟩
  · simp only [frame]
    exact ⟨pools.identifiers,pools.multi,pools.single⟩
  · simp only [frame,queued]
    exact .refl _
  · simp only [frame,released]
  · simp [frame,fresh.outstanding,Machine.start,Machine.inflight,Machine.unconsumed,
      Machine.unprocessed,unpublished]
  · simp [frame,fresh.outstanding]
  · simpa [frame,queued] using owns
  · simp [waiting]

/-- A controller that has been started on two queues as they are after their setup, with event
buffers that are contiguous. -/
structure Started (n : Nat) (events requests : VirtioVirtqueue) (started : SCSISystem) : Prop where
  eventQueue : n < 65536 ∧ ∃ activeFeatures interruptsEnabled calls,
    setupVirtqueue n activeFeatures interruptsEnabled 0 calls = .ok events
  requestQueue : ∃ k < 65536, ∃ activeFeatures interruptsEnabled segments calls,
    setupVirtqueue k activeFeatures interruptsEnabled segments calls = .ok requests
  initialized : ∃ setup eventInfoSize dma, 0 < eventInfoSize ∧
    (∀ i, ∃ address, (dma i).writable.Contiguous address eventInfoSize) ∧
    start setup events requests eventInfoSize dma = some started

theorem Started.run {started : SCSISystem} (begun : Started n events requests started)
    (run : Run scsiSystemStep Allowed started actions s) :
    ∃ k, Refines n k events requests started.controller s := by
  obtain ⟨eventSize,_,_,_,eventsBuilt⟩ := begun.eventQueue
  obtain ⟨k,requestSize,_,_,_,_,requestsBuilt⟩ := begun.requestQueue
  obtain ⟨setup,eventInfoSize,dma,infoSize,contiguous,initialized⟩ := begun.initialized
  have direct : events.indirectDescriptors = false := by
    rw [(setupVirtqueue_built eventSize eventsBuilt).2]
    simp [initialQueue]
  exact ⟨k,run.keeps (Refines n k events requests started.controller)
    (fun allowed taken refines => refines.keeps allowed taken)
    (refines_start (machineInv_setup eventSize eventsBuilt) direct
      (machineInv_setup requestSize requestsBuilt) infoSize contiguous initialized)⟩

end SCSISystem

end VirtioOsx
