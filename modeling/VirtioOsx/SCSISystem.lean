import VirtioOsx.QueueClient
import VirtioOsx.SCSITargets
import VirtioOsx.SCSITaskManagement
import VirtioOsx.SCSITaskPools

/-! The SCSI controller on its event queue and its request queue. Tasks are submitted by the
family, events come in buffers that the controller submits again from inside their completion,
and both queues are processed on the same work loop. -/
namespace VirtioOsx

open Runs

inductive SCSIQueue where
  | events
  | requests
  deriving DecidableEq, Repr

/-- The function pointers of `parallelTaskCompleted` and `eventCompleted`. -/
def parallelTaskCompletedAction : Nat := 0
def eventCompletedAction : Nat := 2

def ParallelTask.completion (t : ParallelTask) : VirtioCompletion :=
  ⟨parallelTaskCompletedAction, controllerTarget, t.identifier⟩

def eventCompletion (eventBuffer : Nat) : VirtioCompletion :=
  ⟨eventCompletedAction, controllerTarget, eventBuffer⟩

/-- What `ProcessParallelTaskInGate` passes to the transport, with the descriptors that it has
taken from the pools. -/
def ParallelTask.submitCall (t : ParallelTask) (multi sub : Nat) (dma : SubmitDma) : SubmitCall :=
  let multiMD : IOMemoryDescriptor :=
    ⟨multi, (t.ranges.1.map MemoryDescriptorSubrange.length).sum % 2^64⟩
  let subMD : IOMemoryDescriptor := ⟨sub, t.ranges.2.2.length⟩
  let toDevice := match t.direction with
    | .fromTargetToInitiator => subMD
    | _ => multiMD
  let fromDevice := match t.direction with
    | .fromTargetToInitiator => multiMD
    | _ => subMD
  ⟨some toDevice, some fromDevice, t.completion, dma.readable, dma.writable, dma.table⟩

def eventCall (eventInfoSize eventBuffer : Nat) (dma : SubmitDma) : SubmitCall :=
  ⟨none, some ⟨eventBuffer, eventInfoSize⟩, eventCompletion eventBuffer, dma.readable,
    dma.writable, dma.table⟩

/-- The family's object of a task that it has not handed over yet. -/
def ParallelTask.unused : ParallelTask := ⟨0, 0, 0, 0, 0, 0, [], none, 0, 0, .noDataTransfer⟩

/-- `task` and `fromDevice` are the memory of a task, by its identifier, and `eventData` that of
an event buffer. `reposting` is set from the completion of an event buffer to the end of its
next submission. `answers`, `reported` and `history` only record what has happened: what was in
the memory of a task or an event when the device returned it, and what the controller was
called with. -/
structure SCSISystem where
  controller : VirtioSCSIController
  eventInfoSize : Nat
  machine : SCSIQueue → Machine
  task : Nat → ParallelTask
  fromDevice : Nat → ReqCmdFromDevice
  eventData : Nat → SCSIEvent
  reposting : Option Nat
  answers : List (ParallelTask × ReqCmdFromDevice)
  reported : List (Nat × SCSIEvent)
  history : List SCSIAction

inductive SCSISystemAction where
  | processParallelTask (t : ParallelTask) (multiChoice singleChoice : Nat) (dma : SubmitDma)
  | repost (dma : SubmitDma)
  | advance (queue : SCSIQueue)
  | writeFromDevice (identifier : Nat) (data : ReqCmdFromDevice)
  | writeEvent (eventBuffer : Nat) (event : SCSIEvent)
  | complete (queue : SCSIQueue) (position writtenBytes : Nat)
  | transport (queue : SCSIQueue) (a : Action)

/-- A submission from its start to the end of its publication. -/
def Machine.perform (m : Machine) (call : SubmitCall) : Option (IOReturn × Machine) :=
  (m.transmit call).bind fun sent =>
    match sent.2.submitting with
    | none => some sent
    | some _ => ((sent.2.publish.bind Machine.publish).bind Machine.publish).map fun m =>
        (sent.1, m)

namespace SCSISystem

/-- The loop over the event buffers: the results of the submissions, and the queue after them. -/
def postEvents (eventInfoSize : Nat) (dma : Nat → SubmitDma) :
    Nat → Nat → Machine → Option (List IOReturn × Machine)
  | 0, _, m => some ([], m)
  | rest + 1, i, m => (m.perform (eventCall eventInfoSize i (dma i))).bind fun sent =>
      if sent.1 = .success then
        (postEvents eventInfoSize dma rest (i + 1) sent.2).map fun posted =>
          (sent.1 :: posted.1, posted.2)
      else some ([sent.1], sent.2)

/-- `InitializeController`, with the two queues that it has set up, and `StartController`. -/
def start (setup : ControllerSetup) (events requests : VirtioVirtqueue) (eventInfoSize : Nat)
    (dma : Nat → SubmitDma) : Option SCSISystem :=
  (postEvents eventInfoSize dma events.numEntries 0 (.start events)).bind fun posted =>
    (VirtioSCSIController.initializeController { setup with
      queueSizes := (setup.queueSizes.1, events.numEntries, requests.numEntries)
      eventSubmission := fun i => posted.1.getD i .busy }).map fun controller =>
    { controller := controller.startController
      eventInfoSize := eventInfoSize
      machine := fun queue => match queue with
        | .events => posted.2
        | .requests => .start requests
      task := fun _ => .unused
      fromDevice := fun _ => ⟨0, 0, 0⟩
      eventData := fun _ => ⟨0, [], 0⟩
      reposting := none
      answers := []
      reported := []
      history := [] }

def withMachine (s : SCSISystem) (queue : SCSIQueue) (m : Machine) : SCSISystem :=
  { s with machine := Function.update s.machine queue m }

def quiet (s : SCSISystem) : Bool :=
  s.reposting.isNone && (s.machine .events).submitting.isNone &&
    (s.machine .requests).submitting.isNone

/-- A task may come while the work loop is idle or in the completion of another task. -/
def mayCall (s : SCSISystem) : Bool :=
  s.reposting.isNone && (s.machine .events).maySubmit && (s.machine .requests).maySubmit

def submission (s : SCSISystem) : SCSISystemAction → Option (SCSIQueue × SubmitCall)
  | .processParallelTask t multiChoice singleChoice dma =>
    (itemFromPool multiChoice s.controller.multiSubrangeMDPool).bind fun multi =>
      (itemFromPool singleChoice s.controller.singleSubrangeMDPool).map fun sub =>
        (.requests, t.submitCall multi.1 sub.1 dma)
  | .repost dma => s.reposting.map fun eventBuffer =>
      (.events, eventCall s.eventInfoSize eventBuffer dma)
  | _ => none

def processParallelTask (t : ParallelTask) (multiChoice singleChoice : Nat) (dma : SubmitDma)
    (s : SCSISystem) : Option SCSISystem :=
  if s.mayCall then
    (s.submission (.processParallelTask t multiChoice singleChoice dma)).bind fun asked =>
    ((s.machine .requests).transmit asked.2).bind fun sent =>
    let calls : TaskCalls := ⟨multiChoice, singleChoice, sent.1⟩
    (s.controller.processParallelTaskInGate t calls).map fun processed =>
      { s.withMachine .requests sent.2 with
        controller := processed.2
        task := Function.update s.task t.identifier t
        history := s.history ++ [.processParallelTask t calls] }
  else none

/-- The rest of `eventCompleted`, with the event that is in the buffer. -/
def repost (dma : SubmitDma) (s : SCSISystem) : Option SCSISystem :=
  s.reposting.bind fun eventBuffer =>
    ((s.machine .events).transmit (eventCall s.eventInfoSize eventBuffer dma)).map fun sent =>
      let event := s.eventData eventBuffer
      { s.withMachine .events sent.2 with
        controller := s.controller.eventCompleted eventBuffer false event sent.1
        reposting := none
        history := s.history ++ [.eventCompleted eventBuffer false event sent.1] }

def completed (s : SCSISystem) (completion : VirtioCompletion) : SCSISystem :=
  if completion.action = eventCompletedAction then { s with reposting := some completion.ref }
  else
    let t := s.task completion.ref
    let data := s.fromDevice completion.ref
    { s with
      controller := s.controller.parallelTaskCompleted t false data
      history := s.history ++ [.parallelTaskCompleted t false data] }

def advance (queue : SCSIQueue) (s : SCSISystem) : Option SCSISystem :=
  if s.quiet then
    (s.machine queue).advance.map fun m =>
      match m.log[(s.machine queue).log.length]? with
      | none => s.withMachine queue m
      | some invocation => (s.withMachine queue m).completed invocation.completion
  else none

def holds (s : SCSISystem) (queue : SCSIQueue) (ref : Nat) : Bool :=
  (s.machine queue).owned.any fun f => f.request.completion.ref == ref

/-- The fields have 32, 8 and 8 bits. -/
def writeFromDevice (identifier : Nat) (data : ReqCmdFromDevice) (s : SCSISystem) :
    Option SCSISystem :=
  if s.holds .requests identifier then
    let data : ReqCmdFromDevice := ⟨data.residual % 2^32, data.status % 256, data.response % 256⟩
    some { s with fromDevice := Function.update s.fromDevice identifier data }
  else none

def writeEvent (eventBuffer : Nat) (event : SCSIEvent) (s : SCSISystem) : Option SCSISystem :=
  if s.holds .events eventBuffer then
    some { s with eventData := Function.update s.eventData eventBuffer event }
  else none

def complete (queue : SCSIQueue) (position writtenBytes : Nat) (s : SCSISystem) :
    Option SCSISystem :=
  (s.machine queue).owned[position]?.bind fun f =>
    ((s.machine queue).complete position writtenBytes).map fun m =>
      let ref := f.request.completion.ref
      match queue with
      | .events => { s.withMachine queue m with
          reported := s.reported ++ [(ref, s.eventData ref)] }
      | .requests => { s.withMachine queue m with
          answers := s.answers ++ [(s.task ref, s.fromDevice ref)] }

/-- The work loop processes one queue at a time. -/
def mayStep (s : SCSISystem) : Action → Bool
  | .process _ => s.quiet && (s.machine .events).processing.isNone &&
      (s.machine .requests).processing.isNone
  | _ => true

def transport (queue : SCSIQueue) (a : Action) (s : SCSISystem) : Option SCSISystem :=
  if s.mayStep a then
    ((s.machine queue).transport a).map fun m => s.withMachine queue m
  else none

end SCSISystem

def scsiSystemStep (a : SCSISystemAction) (s : SCSISystem) : Option SCSISystem :=
  match a with
  | .processParallelTask t multiChoice singleChoice dma =>
    s.processParallelTask t multiChoice singleChoice dma
  | .repost dma => s.repost dma
  | .advance queue => s.advance queue
  | .writeFromDevice identifier data => s.writeFromDevice identifier data
  | .writeEvent eventBuffer event => s.writeEvent eventBuffer event
  | .complete queue position writtenBytes => s.complete queue position writtenBytes
  | .transport queue a => s.transport queue a

end VirtioOsx
