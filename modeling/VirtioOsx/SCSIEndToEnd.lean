import VirtioOsx.SCSISystemRuns

/-! What the family gets from the SCSI controller on its queues: every task that was taken is
completed once, with what the device left in its memory, and no event buffer is ever missing
from the event queue for good. -/
namespace VirtioOsx

open Runs
open VirtioSCSIController

def ParallelTask.conclusion (t : ParallelTask) (data : ReqCmdFromDevice) : CompleteParallelTask :=
  if data.response = responseOk then
    ⟨t.identifier, .reported data.status, .taskComplete,
      some (if data.status = statusGood then
        (t.requestedDataTransferCount + 2^64 - data.residual) % 2^64 else 0)⟩
  else if data.response = responseBadTarget then
    ⟨t.identifier, .deviceNotPresent, .serviceDeliveryOrTargetFailure, some 0⟩
  else ⟨t.identifier, .reported data.status, .serviceDeliveryOrTargetFailure, some 0⟩

theorem ParallelTask.conclusion_identifier (t : ParallelTask) (data : ReqCmdFromDevice) :
    (t.conclusion data).identifier = t.identifier := by
  unfold conclusion
  split
  · rfl
  split
  · rfl
  · rfl

theorem parallelTaskCompleted_completions (c : VirtioSCSIController) (t : ParallelTask)
    (data : ReqCmdFromDevice) :
    (c.parallelTaskCompleted t false data).completions =
      c.completions ++ [t.conclusion data] := by
  unfold parallelTaskCompleted ParallelTask.conclusion
  simp only [Bool.false_eq_true,if_false]
  split
  · rfl
  split
  · rfl
  · rfl

/-- What a run of the controller makes of the tasks that it is handed. -/
structure Ledger (history : List SCSIAction) (c : VirtioSCSIController) : Prop where
  accepted : (history.filterMap SCSIAction.accepted).Perm
    ((history.filterMap SCSIAction.answered).map Prod.fst ++ c.outstanding)
  completions : c.completions =
    (history.filterMap SCSIAction.answered).map fun answer => answer.1.conclusion answer.2

/-- An action that takes no task and completes none. -/
theorem Ledger.unchanged {c c' : VirtioSCSIController} (ledger : Ledger history c)
    (accepted : a.accepted = none) (answered : a.answered = none)
    (outstanding : c'.outstanding = c.outstanding) (completions : c'.completions = c.completions) :
    Ledger (history ++ [a]) c' := by
  have noneAccepted : (history ++ [a]).filterMap SCSIAction.accepted =
      history.filterMap SCSIAction.accepted := by
    simp [accepted]
  have noneAnswered : (history ++ [a]).filterMap SCSIAction.answered =
      history.filterMap SCSIAction.answered := by
    simp [answered]
  refine ⟨?_,?_⟩
  · rw [noneAccepted,noneAnswered,outstanding]
    exact ledger.accepted
  · rw [noneAnswered,completions]
    exact ledger.completions

theorem Ledger.keeps {c c' : VirtioSCSIController} (ledger : Ledger history c)
    (cooperating : Cooperating c a) (taken : scsiStep a c = some c') :
    Ledger (history ++ [a]) c' := by
  cases a with
  | processParallelTask t calls =>
    obtain ⟨⟨response,_⟩,processed,rfl⟩ := Option.map_eq_some_iff.mp taken
    obtain ⟨multi,sub,_,_,_,ended⟩ := processParallelTaskInGate_cases processed
    unfold submitTask at ended
    split at ended
    · rename_i success
      obtain ⟨_,rfl⟩ := Prod.mk.inj ended
      have takes : (SCSIAction.processParallelTask t calls).accepted = some t := if_pos success
      refine ⟨?_,?_⟩
      · simp only [List.filterMap_append,List.filterMap_cons,takes,SCSIAction.answered,
          List.filterMap_nil,List.append_nil]
        refine (ledger.accepted.append_right [t]).trans ?_
        rw [List.append_assoc]
        exact (List.perm_append_singleton t _).append_left _
      · simp only [List.filterMap_append,List.filterMap_cons,SCSIAction.answered,
          List.filterMap_nil,List.append_nil]
        exact ledger.completions
    · rename_i failed
      obtain ⟨_,rfl⟩ := Prod.mk.inj ended
      exact ledger.unchanged (if_neg failed) rfl rfl rfl
  | parallelTaskCompleted t deviceReset data =>
    obtain rfl : deviceReset = false := cooperating.2
    simp only [scsiStep] at taken
    split at taken
    case isFalse => cases taken
    rename_i member
    obtain rfl := Option.some.inj taken
    obtain ⟨present,all,frame⟩ := parallelTaskCompleted_frame c t false data
    refine ⟨?_,?_⟩
    · simp only [frame,List.filterMap_append,List.filterMap_cons,SCSIAction.accepted,
        SCSIAction.answered,List.filterMap_nil,List.append_nil,List.map_append,List.map_cons,
        List.map_nil,List.append_assoc,List.singleton_append]
      exact ledger.accepted.trans ((List.perm_cons_erase member).append_left _)
    · rw [parallelTaskCompleted_completions,ledger.completions]
      simp [SCSIAction.answered]
  | eventCompleted eventBuffer deviceReset event resubmission =>
    simp only [scsiStep] at taken
    split at taken
    case isFalse => cases taken
    obtain rfl := Option.some.inj taken
    obtain ⟨_,_,_,frame⟩ := eventCompleted_frame c eventBuffer deviceReset event resubmission
    exact ledger.unchanged rfl rfl (by rw [frame]) (by rw [frame])

theorem Ledger.run {first c : VirtioSCSIController} (ledger : Ledger history first)
    (run : Run scsiStep Cooperating first actions c) : Ledger (history ++ actions) c := by
  induction run generalizing history with
  | nil => simpa using ledger
  | cons cooperating taken _ ih =>
    have later := ih (ledger.keeps cooperating taken)
    rwa [List.append_assoc] at later

def Machine.unanswered (m : Machine) : List Request :=
  unpublished m.submitting ++ (m.unconsumed ++ m.owned.map Fetched.request)

theorem Machine.inflight_split (m : Machine) :
    m.inflight = m.unanswered ++ m.unprocessed.map fun e => e.fetched.request := by
  simp [Machine.inflight,Machine.unanswered]

theorem TasksAgree.inflight {m : Machine} {outstanding : List ParallelTask}
    {task : Nat → ParallelTask} {fromDevice : Nat → ReqCmdFromDevice}
    {answers done : List (ParallelTask × ReqCmdFromDevice)}
    (agree : TasksAgree m outstanding task fromDevice answers done) :
    (m.inflight.map fun r => task r.completion.ref).Perm outstanding := by
  have refs := agree.owns.map fun completion => task completion.ref
  have known : (outstanding.map fun t => task t.completion.ref) = outstanding := by
    conv_rhs => rw [← List.map_id outstanding]
    exact List.map_congr_left agree.known
  rw [List.map_map,List.map_map] at refs
  exact refs.trans (.of_eq known)

namespace SCSISystem

/-- What becomes of the tasks: each one that was accepted is returned once or is still with the
device, and `CompleteParallelTask` is called for those that have been returned, in their order
and with what was in their memory then. -/
structure TasksAnswered (s : SCSISystem) : Prop where
  once : (s.history.filterMap SCSIAction.accepted).Perm (s.answers.map Prod.fst ++
    (s.machine .requests).unanswered.map fun r => s.task r.completion.ref)
  completions : s.controller.completions =
    (s.answers.take s.controller.completions.length).map fun answer =>
      answer.1.conclusion answer.2
  waiting : s.answers.length =
    s.controller.completions.length + (s.machine .requests).unprocessed.length
  drained : (s.machine .requests).inflight = [] →
    ((s.history.filterMap SCSIAction.accepted).map ParallelTask.identifier).Perm
      (s.controller.completions.map CompleteParallelTask.identifier)

/-- What becomes of the event buffers: they are in the queue, but for the one whose event is
being handled, and the events are handled in the order in which the device returned them. -/
structure EventsKept (n : Nat) (s : SCSISystem) : Prop where
  released : s.controller.releasedEvents = []
  places : (s.reposting.toList ++
    (s.machine .events).inflight.map fun r => r.completion.ref).Perm (List.range n)
  handled : s.reported = s.history.filterMap SCSIAction.handled ++
    (s.reposting.toList ++ (s.machine .events).waiting).map fun eventBuffer =>
      (eventBuffer, s.eventData eventBuffer)
  accepted : ∀ a ∈ s.history, a.Working

variable {s : SCSISystem} {events requests : VirtioVirtqueue} {first : VirtioSCSIController}

theorem Refines.tasksAnswered (refines : Refines n k events requests first s)
    (fresh : Ledger [] first) : s.TasksAnswered := by
  have ledger : Ledger s.history s.controller := fresh.run refines.controller
  have tasks := refines.agrees.tasks
  have inflight := tasks.inflight
  rw [Machine.inflight_split,List.map_append,List.map_map] at inflight
  have returned : s.answers.map Prod.fst =
      (s.history.filterMap SCSIAction.answered).map Prod.fst ++
        (s.machine .requests).unprocessed.map fun e => s.task e.fetched.request.completion.ref := by
    rw [tasks.answers,List.map_append,List.map_map,Machine.waiting,List.map_map]
    rfl
  have count := congrArg List.length ledger.completions
  rw [List.length_map] at count
  refine ⟨?_,?_,?_,fun empty => ?_⟩
  · rw [returned,List.append_assoc]
    exact ledger.accepted.trans ((inflight.symm.trans List.perm_append_comm).append_left _)
  · rw [tasks.answers,count,List.take_left]
    exact ledger.completions
  · rw [tasks.answers,count,List.length_append,List.length_map,Machine.waiting,List.length_map]
  · have all := ledger.accepted
    have none := tasks.inflight
    rw [empty,List.map_nil] at none
    rw [none.nil_eq.symm,List.append_nil] at all
    rw [ledger.completions,List.map_map]
    refine (all.map ParallelTask.identifier).trans (.of_eq ?_)
    rw [List.map_map]
    exact List.map_congr_left fun answer _ => (ParallelTask.conclusion_identifier _ _).symm

theorem Started.ledger {started : SCSISystem} (begun : Started n events requests started) :
    Ledger [] started.controller := by
  obtain ⟨_,_,_,_,_,initialized⟩ := begun.initialized
  obtain ⟨posted,_,rest⟩ := Option.bind_eq_some_iff.mp initialized
  obtain ⟨c,made,rfl⟩ := Option.map_eq_some_iff.mp rest
  obtain ⟨present,frame⟩ := startController_frame c
  have fresh := initializeController_spec made
  have completions : c.completions = [] := by
    unfold initializeController at made
    split at made
    · cases made
    split at made
    · cases made
    split at made
    · cases made
    obtain rfl := Option.some.inj made
    rfl
  refine ⟨?_,?_⟩
  · simp [frame,fresh.outstanding]
  · simp [frame,completions]

theorem Refines.eventsKept (refines : Refines n k events requests first s) : s.EventsKept n := by
  have agrees := refines.agrees.events
  refine ⟨refines.released,agrees.places.trans refines.queued,agrees.reported,?_⟩
  exact refines.controller.actions_all And.right

end SCSISystem

/-- In every run the two queues go through runs of their own, the controller through a run whose
submissions return what the request queue returns and in which the event queue takes every buffer
back, and what is in flight on the queues are the tasks and the event buffers of the
controller. -/
theorem scsi_system_refines (n : Nat) (events requests : VirtioVirtqueue) (started : SCSISystem)
    (begun : SCSISystem.Started n events requests started) (actions : List SCSISystemAction)
    (s : SCSISystem) (run : Run scsiSystemStep SCSISystem.Allowed started actions s) :
    (∃ steps, Run step Sound (.start events) steps (s.machine .events)) ∧
    (∃ steps, Run step Sound (.start requests) steps (s.machine .requests)) ∧
    Run scsiStep Cooperating started.controller s.history s.controller ∧
    ((s.machine .requests).inflight.map Request.completion).Perm
      (s.controller.outstanding.map ParallelTask.completion) ∧
    (s.reposting.toList.map eventCompletion ++
      (s.machine .events).inflight.map Request.completion).Perm
      (s.controller.queuedEvents.map eventCompletion) := by
  obtain ⟨k,refines⟩ := begun.run run
  exact ⟨refines.eventRun,refines.requestRun,refines.controller,refines.agrees.tasks.owns,
    refines.agrees.events.owns⟩

/-- In every run, the tasks that were accepted are completed once each, in the order in which the
device returned them and with what it left in their memory. -/
theorem scsi_tasks_answered (n : Nat) (events requests : VirtioVirtqueue) (started : SCSISystem)
    (begun : SCSISystem.Started n events requests started) (actions : List SCSISystemAction)
    (s : SCSISystem) (run : Run scsiSystemStep SCSISystem.Allowed started actions s) :
    s.TasksAnswered := by
  obtain ⟨k,refines⟩ := begun.run run
  exact refines.tasksAnswered begun.ledger

/-- In every run, whatever tasks are handed over, the event queue takes back each of its buffers,
and no event is lost or handled twice. -/
theorem scsi_event_buffers_kept (n : Nat) (events requests : VirtioVirtqueue) (started : SCSISystem)
    (begun : SCSISystem.Started n events requests started) (actions : List SCSISystemAction)
    (s : SCSISystem) (run : Run scsiSystemStep SCSISystem.Allowed started actions s) :
    s.EventsKept n := by
  obtain ⟨k,refines⟩ := begun.run run
  exact refines.eventsKept

/-- The submission of a task is checked, that of an event only for the size of its buffer. -/
def checkAllowed (s : SCSISystem) : SCSISystemAction → Bool
  | .processParallelTask t multiChoice singleChoice dma =>
    decide (Promised s.controller (.processParallelTask t ⟨multiChoice, singleChoice, .success⟩)) &&
      (s.submission (.processParallelTask t multiChoice singleChoice dma)).all fun asked =>
        checkPublishes (s.machine .requests) asked.2
  | .repost _ => s.eventInfoSize == 16
  | _ => true

def Reposts (calls : DmaCalls → Prop) : SCSISystemAction → Prop
  | .repost dma => calls dma.writable
  | _ => True

theorem allowed_of_check (s : SCSISystem) (a : SCSISystemAction) (checked : checkAllowed s a = true)
    (mapped : Reposts (fun calls => calls.Contiguous 8192 16) a) : s.Allowed a := by
  cases a with
  | processParallelTask t multiChoice singleChoice dma =>
    simp only [checkAllowed,Bool.and_eq_true,decide_eq_true_eq] at checked
    exact ⟨checked.1,fun asked submitted =>
      publishes_of_check ((Option.all_eq_true _ _).mp checked.2 asked submitted)⟩
  | repost dma =>
    have size : s.eventInfoSize = 16 := eq_of_beq checked
    exact ⟨8192,size ▸ mapped⟩
  | advance | writeFromDevice | writeEvent | complete | transport => trivial

def mappedTask : SubmitDma :=
  ⟨(ScatterList.mk [⟨4160, 35⟩] (by simp)).dma,
    (ScatterList.mk [⟨4196, 108⟩, ⟨65536, 512⟩] (by simp)).dma, sector.dma⟩

def mappedEvent : SubmitDma := ⟨sector.dma, (ScatterList.mk [⟨8192, 16⟩] (by simp)).dma, sector.dma⟩

theorem mappedEvent_contiguous : mappedEvent.writable.Contiguous 8192 16 :=
  ScatterList.contiguous _ rfl

def startTwoTasks : Option SCSISystem :=
  SCSISystem.start twoTasks (initialQueue 2 true false (readyCalls 2 64))
    (initialQueue 8 true false (readyCalls 8 64)) 16 fun _ => mappedEvent

theorem startTwoTasks_started (initialized : startTwoTasks = some started) :
    started.Started 2 (initialQueue 2 true false (readyCalls 2 64))
      (initialQueue 8 true false (readyCalls 8 64)) where
  eventQueue := ⟨by decide,0,true,readyCalls 2 64,rfl⟩
  requestQueue := ⟨8,by decide,0,true,0,readyCalls 8 64,rfl⟩
  initialized := ⟨twoTasks,16,fun _ => mappedEvent,by decide,
    fun _ => ⟨8192,mappedEvent_contiguous⟩,initialized⟩

/-- Of two tasks the second is answered first. Its identifier is used for a third one, which
comes while the queue of the events is still processed: target 5 has been plugged in. -/
def tasksAndEvent : List SCSISystemAction :=
  [.processParallelTask (readTask 0 0) 0 0 mappedTask,
    .transport .requests .publish, .transport .requests .publish, .transport .requests .publish,
    .processParallelTask (readTask 1 0) 0 5 mappedTask,
    .transport .requests .publish, .transport .requests .publish, .transport .requests .publish,
    .transport .requests .kick, .transport .requests .fetch, .transport .requests .fetch,
    .writeFromDevice 1 ⟨512, 0, 3⟩, .complete .requests 1 108,
    .transport .events .kick, .transport .events .fetch, .writeEvent 0 (transportEvent 1 5),
    .complete .events 0 16, .transport .requests (.process 0),
    .advance .requests, .advance .requests, .advance .requests, .advance .requests,
    .advance .requests, .advance .requests, .advance .requests, .transport .events (.process 0),
    .advance .events, .advance .events, .repost mappedEvent,
    .transport .events .publish, .transport .events .publish, .transport .events .publish,
    .processParallelTask (readTask 1 5) 3 5 mappedTask,
    .transport .requests .publish, .transport .requests .publish, .transport .requests .publish,
    .advance .events, .writeFromDevice 0 ⟨0, 0, 0⟩, .complete .requests 0 620]

theorem tasksAndEvent_reposts :
    ∀ a ∈ tasksAndEvent, Reposts (fun calls => calls.Contiguous 8192 16) a := by
  simp only [tasksAndEvent,List.forall_mem_cons,Reposts,List.not_mem_nil,false_imp_iff,implies_true,
    and_true,true_and]
  exact mappedEvent_contiguous

theorem tasksAndEvent_run {seen : SCSISystem → Bool}
    (played : (startTwoTasks.bind fun started =>
      (play scsiSystemStep checkAllowed tasksAndEvent started)).any seen = true) :
    ∃ started s, startTwoTasks = some started ∧
      Run scsiSystemStep SCSISystem.Allowed started tasksAndEvent s ∧ seen s = true := by
  obtain ⟨s,played,seen⟩ := (Option.any_eq_true _ _).mp played
  obtain ⟨started,initialized,played⟩ := Option.bind_eq_some_iff.mp played
  have run : Run scsiSystemStep (fun s a => checkAllowed s a = true) started tasksAndEvent s :=
    run_of_play (fun _ _ => id) played
  have run := (run.and (run.of_actions fun a member _ => tasksAndEvent_reposts a member)).mono
    fun good => allowed_of_check _ _ good.1 good.2
  exact ⟨started,s,initialized,run,seen⟩

theorem tasksAndEvent_played :
    ∃ started s, startTwoTasks = some started ∧
      Run scsiSystemStep SCSISystem.Allowed started tasksAndEvent s ∧
      s.controller.outstanding = [readTask 1 5, readTask 0 0] ∧ s.controller.present = [5] ∧
      s.answers = [(readTask 1 0, ⟨512, 0, 3⟩), (readTask 0 0, ⟨0, 0, 0⟩)] ∧
      s.controller.completions.map CompleteParallelTask.identifier = [1] ∧
      s.reported = [(0, transportEvent 1 5)] ∧ (s.machine .events).inflight.length = 2 := by
  have played : (startTwoTasks.bind fun started =>
      (play scsiSystemStep checkAllowed tasksAndEvent started)).any (fun s =>
        s.controller.outstanding = [readTask 1 5,readTask 0 0] ∧ s.controller.present = [5] ∧
        s.answers = [(readTask 1 0,⟨512,0,3⟩),(readTask 0 0,⟨0,0,0⟩)] ∧
        s.controller.completions.map CompleteParallelTask.identifier = [1] ∧
        s.reported = [(0,transportEvent 1 5)] ∧ (s.machine .events).inflight.length = 2) = true := by
    decide +kernel
  obtain ⟨started,s,initialized,run,seen⟩ := tasksAndEvent_run played
  exact ⟨started,s,initialized,run,of_decide_eq_true seen⟩

theorem scsi_system_refines_tasksAndEvent :
    ∃ s : SCSISystem,
      (∃ steps, Run step Sound (.start (initialQueue 2 true false (readyCalls 2 64))) steps
        (s.machine .events)) ∧
      ((s.machine .requests).inflight.map Request.completion).Perm
        [(readTask 1 5).completion, (readTask 0 0).completion] ∧
      (s.machine .events).inflight.length = 2 := by
  obtain ⟨started,s,initialized,run,outstanding,_,_,_,_,events⟩ := tasksAndEvent_played
  obtain ⟨eventRun,_,_,owns,_⟩ := scsi_system_refines 2 _ _ started
    (startTwoTasks_started initialized) tasksAndEvent s run
  rw [outstanding] at owns
  exact ⟨s,eventRun,owns,events⟩

theorem scsi_tasks_answered_tasksAndEvent :
    ∃ s : SCSISystem, s.TasksAnswered ∧
      s.answers = [(readTask 1 0, ⟨512, 0, 3⟩), (readTask 0 0, ⟨0, 0, 0⟩)] ∧
      s.controller.completions.map CompleteParallelTask.identifier = [1] := by
  obtain ⟨started,s,initialized,run,_,_,answers,completions,_⟩ := tasksAndEvent_played
  exact ⟨s,scsi_tasks_answered 2 _ _ started (startTwoTasks_started initialized) tasksAndEvent s run,
    answers,completions⟩

theorem scsi_event_buffers_kept_tasksAndEvent :
    ∃ s : SCSISystem, s.EventsKept 2 ∧ s.reported = [(0, transportEvent 1 5)] ∧
      s.controller.present = [5] := by
  obtain ⟨started,s,initialized,run,_,present,_,_,reported,_⟩ := tasksAndEvent_played
  exact ⟨s,scsi_event_buffers_kept 2 _ _ started (startTwoTasks_started initialized) tasksAndEvent s
    run,reported,present⟩

end VirtioOsx
