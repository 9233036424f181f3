import Mathlib.Data.BitVec
import Mathlib.Logic.Function.Basic
import VirtioOsx.Lib.Pool
import VirtioOsx.Lib.Runs
import VirtioOsx.Virtqueue

/-! The SCSI controller: its pools of memory descriptors, the tasks that the family hands it,
the events that the device reports, and the targets that it has the family create. The
results of calls outside of it come in as arguments; the references that are counted on the
way are not part of this. -/
namespace VirtioOsx

inductive SCSIDataTransfer where
  | noDataTransfer
  | fromInitiatorToTarget
  | fromTargetToInitiator
  deriving DecidableEq, Repr

inductive SCSIServiceResponse where
  | requestInProcess
  | serviceDeliveryOrTargetFailure
  | taskComplete
  | functionComplete
  | functionRejected
  deriving DecidableEq, Repr

/-- The status comes from the device, unless there is none behind the request. -/
inductive SCSITaskStatus where
  | reported (status : Nat)
  | deviceNotPresent
  deriving DecidableEq, Repr

/-- `SSDCMemoryDescriptorSubrange`; without `md` the pointer is null. -/
structure MemoryDescriptorSubrange where
  md : Option Nat
  offset : Nat
  length : Nat
  deriving DecidableEq, Repr

/-- `SSDCMultiSubrangeMemoryDescriptor`. It does not copy the ranges, `subranges` is the task
in whose data they are. -/
structure MultiSubrangeMD where
  subranges : Option Nat
  numSubranges : Nat
  direction : IODirection
  length : Nat
  deriving DecidableEq, Repr

structure SubMD where
  parent : Option Nat
  start : Nat
  length : Nat
  direction : IODirection
  deriving DecidableEq, Repr

namespace MultiSubrangeMD

/-- What `initWithDescriptorRanges` leaves when it is given no ranges. -/
def empty : MultiSubrangeMD := ⟨none, 0, .none, 0⟩

/-- Every range's descriptor is retained, a null pointer is not expected among them. -/
def initWithDescriptorRanges (task : Nat) (ranges : List MemoryDescriptorSubrange)
    (direction : IODirection) : Option MultiSubrangeMD :=
  if ranges.all fun range => range.md.isSome then
    some ⟨some task, ranges.length, direction,
      (ranges.map MemoryDescriptorSubrange.length).sum % 2^64⟩
  else none

end MultiSubrangeMD

namespace SubMD

def empty : SubMD := ⟨none, 0, 0, .none⟩

/-- The ranges that the controller asks for are within their parent. -/
def initSubRange (parent : Nat) (offset length : Nat) (direction : IODirection) : SubMD :=
  ⟨some parent, offset, length, direction⟩

end SubMD

/-- What the family tells of a task: `identifier` is its `SCSIParallelTaskIdentifier`, and
`requestBuffer` the memory with its `virtio_scsi_task`. -/
structure ParallelTask where
  identifier : Nat
  requestBuffer : Nat
  target : Nat
  lun : Nat
  taggedTaskIdentifier : Nat
  taskAttribute : Nat
  commandDescriptorBlock : List Nat
  dataBuffer : Option IOMemoryDescriptor
  dataBufferOffset : Nat
  requestedDataTransferCount : Nat
  direction : SCSIDataTransfer
  deriving DecidableEq, Repr

structure ReqCmdToDevice where
  lun : List Nat
  id : Nat
  taskAttr : Nat
  prio : Nat
  crn : Nat
  cdb : List Nat
  deriving DecidableEq, Repr

/-- `virtio_scsi_req_cmd_from_device`, less the sense data. -/
structure ReqCmdFromDevice where
  residual : Nat
  status : Nat
  response : Nat
  deriving DecidableEq, Repr

structure SCSITask where
  subMD : Nat
  multiMD : Nat
  subrange : List MemoryDescriptorSubrange
  toDevice : ReqCmdToDevice
  deriving DecidableEq, Repr

namespace SCSITask

def toDeviceOffset : Nat := 64
def toDeviceSize : Nat := 35
def fromDeviceOffset : Nat := 100
def fromDeviceSize : Nat := 108

end SCSITask

/-- One call of `CompleteParallelTask`, with what `SetRealizedDataTransferCount` was told. -/
structure CompleteParallelTask where
  identifier : Nat
  completionStatus : SCSITaskStatus
  serviceResponse : SCSIServiceResponse
  realizedDataTransferCount : Option Nat
  deriving DecidableEq, Repr

/-- Objects are numbered in the order of their creation. `outstanding` are the tasks that
the device has, `present` the targets that have been created and not been destroyed since,
and `queuedEvents`, `releasedEvents` and `completions` record what has happened. -/
structure VirtioSCSIController where
  hotplug : Bool
  maxTarget : Nat
  maxTaskCount : Nat
  multiSubrangeMDPool : List Nat
  singleSubrangeMDPool : List Nat
  multiMD : Nat → MultiSubrangeMD
  subMD : Nat → SubMD
  task : Nat → SCSITask
  outstanding : List ParallelTask
  present : List Nat
  queuedEvents : List Nat
  releasedEvents : List Nat
  completions : List CompleteParallelTask

/-- What `InitializeController` is given. `queueSizes` are the sizes of the control, the event
and the request queue, `eventSubmission` the results of the submissions of event buffers. -/
structure ControllerSetup where
  virtioProvider : Bool
  features : BitVec 32
  requestFeatures : Bool
  cmdPerLun : Nat
  maxTarget : Nat
  setupVirtqueues : IOReturn
  queueSizes : Nat × Nat × Nat
  eventSubmission : Nat → IOReturn

namespace VirtioSCSIController

def supportedFeatures : BitVec 32 := BitVec.ofNat 32 (2^0 + 2^1 + 2^28)

/-- The loop over the event buffers: those that have been submitted, and the one that was
released because it could not be. -/
def submitEvents (submission : Nat → IOReturn) : Nat → Nat → List Nat × List Nat
  | 0, _ => ([], [])
  | rest + 1, i =>
    if submission i = .success then
      let (queued, released) := submitEvents submission rest (i + 1)
      (i :: queued, released)
    else ([], [i])

/-- The descriptors of the two pools are created in turn. -/
def initializeController (c : ControllerSetup) : Option VirtioSCSIController :=
  if !c.virtioProvider then none
  else if !c.requestFeatures then none
  else if c.setupVirtqueues ≠ .success then none
  else
    let maxTaskCount := min c.cmdPerLun c.queueSizes.2.2
    let (queued, released) := submitEvents c.eventSubmission c.queueSizes.2.1 0
    some {
      hotplug := (c.features &&& supportedFeatures).getLsbD 1
      maxTarget := c.maxTarget
      maxTaskCount := maxTaskCount
      multiSubrangeMDPool := (List.range maxTaskCount).map (2 * ·)
      singleSubrangeMDPool := (List.range maxTaskCount).map (2 * · + 1)
      multiMD := fun _ => .empty
      subMD := fun _ => .empty
      task := fun _ => ⟨0, 0, [], ⟨[], 0, 0, 0, 0, []⟩⟩
      outstanding := []
      present := []
      queuedEvents := queued
      releasedEvents := released
      completions := [] }

/-- The controller before it is started: nothing is under way, the pools are full and their
descriptors empty. -/
structure Initialized (setup : ControllerSetup) (c : VirtioSCSIController) : Prop where
  multiPool : c.multiSubrangeMDPool = (List.range c.maxTaskCount).map (2 * ·)
  singlePool : c.singleSubrangeMDPool = (List.range c.maxTaskCount).map (2 * · + 1)
  multiMD : c.multiMD = fun _ => .empty
  subMD : c.subMD = fun _ => .empty
  outstanding : c.outstanding = []
  present : c.present = []
  events : (c.queuedEvents, c.releasedEvents) =
    submitEvents setup.eventSubmission setup.queueSizes.2.1 0

theorem initializeController_spec {c : VirtioSCSIController}
    (initialized : initializeController setup = some c) : Initialized setup c := by
  unfold initializeController at initialized
  split at initialized
  · cases initialized
  split at initialized
  · cases initialized
  split at initialized
  · cases initialized
  obtain rfl := Option.some.inj initialized
  exact ⟨rfl,rfl,rfl,rfl,rfl,rfl,rfl⟩

def reportHighestSupportedDeviceID (c : VirtioSCSIController) : Nat := c.maxTarget

def reportMaximumTaskCount (c : VirtioSCSIController) : Nat := c.maxTaskCount

def createTargetForID (c : VirtioSCSIController) (target : Nat) : VirtioSCSIController :=
  { c with present := c.present.insert target }

def destroyTargetForID (c : VirtioSCSIController) (target : Nat) : VirtioSCSIController :=
  { c with present := c.present.filter (· ≠ target) }

def startController (c : VirtioSCSIController) : VirtioSCSIController :=
  if c.hotplug then (List.range c.maxTarget).foldl createTargetForID c else c

end VirtioSCSIController

def itemFromPool (choice : Nat) (pool : List Nat) : Option (Nat × List Nat) := Pool.draw choice pool

def returnItemToPool (item : Nat) (pool : List Nat) : List Nat := pool.insert item

def lunBytesFromTargetLun (target lun : Nat) : List Nat :=
  [1, target % 256, lun / 256 % 256, lun % 256, 0, 0, 0, 0]

structure TaskCalls where
  multiChoice : Nat
  singleChoice : Nat
  submitBuffersToVirtqueue : IOReturn

def ParallelTask.dataSize (t : ParallelTask) : Nat :=
  min t.requestedDataTransferCount
    (match t.dataBuffer with
    | none => 0
    | some buffer => (buffer.length + 2^64 - t.dataBufferOffset % 2^64) % 2^64)

def ParallelTask.toDevice (t : ParallelTask) : ReqCmdToDevice :=
  ⟨lunBytesFromTargetLun t.target t.lun, t.taggedTaskIdentifier, t.taskAttribute, 0, 0,
    t.commandDescriptorBlock⟩

/-- What the two descriptors are set to: the ranges of the first, and the direction and the
part of the request buffer of the second. -/
def ParallelTask.ranges (t : ParallelTask) :
    List MemoryDescriptorSubrange × IODirection × SubMD :=
  let toDevice : MemoryDescriptorSubrange :=
    ⟨some t.requestBuffer, SCSITask.toDeviceOffset, SCSITask.toDeviceSize⟩
  let fromDevice : MemoryDescriptorSubrange :=
    ⟨some t.requestBuffer, SCSITask.fromDeviceOffset, SCSITask.fromDeviceSize⟩
  let data : MemoryDescriptorSubrange :=
    ⟨t.dataBuffer.map IOMemoryDescriptor.identity, t.dataBufferOffset, t.dataSize⟩
  let subFromDevice := SubMD.initSubRange t.requestBuffer SCSITask.fromDeviceOffset
    SCSITask.fromDeviceSize .input
  match t.direction with
  | .fromInitiatorToTarget => ([toDevice, data], .output, subFromDevice)
  | .fromTargetToInitiator => ([fromDevice, data], .input,
      SubMD.initSubRange t.requestBuffer SCSITask.toDeviceOffset SCSITask.toDeviceSize .output)
  | .noDataTransfer => ([toDevice], .output, subFromDevice)

namespace VirtioSCSIController

/-- Both descriptors are emptied before they go back to their pools. -/
def returnDescriptors (c : VirtioSCSIController) (multi sub : Nat) : VirtioSCSIController :=
  { c with
    multiMD := Function.update c.multiMD multi .empty
    multiSubrangeMDPool := returnItemToPool multi c.multiSubrangeMDPool
    subMD := Function.update c.subMD sub .empty
    singleSubrangeMDPool := returnItemToPool sub c.singleSubrangeMDPool }

/-- The end of `ProcessParallelTaskInGate`. -/
def submitTask (c : VirtioSCSIController) (t : ParallelTask) (multi sub : Nat) (result : IOReturn) :
    SCSIServiceResponse × VirtioSCSIController :=
  if result = .success then (.requestInProcess, { c with outstanding := t :: c.outstanding })
  else (.serviceDeliveryOrTargetFailure, c.returnDescriptors multi sub)

/-- There is no result if a null pointer is used: a descriptor that the pool did not have, or
the data buffer of a task that transfers data without one. -/
def processParallelTaskInGate (c : VirtioSCSIController) (t : ParallelTask) (calls : TaskCalls) :
    Option (SCSIServiceResponse × VirtioSCSIController) :=
  (itemFromPool calls.multiChoice c.multiSubrangeMDPool).bind fun (multi, multiPool) =>
  (itemFromPool calls.singleChoice c.singleSubrangeMDPool).bind fun (sub, singlePool) =>
  (MultiSubrangeMD.initWithDescriptorRanges t.identifier t.ranges.1 t.ranges.2.1).map fun multiMD =>
  submitTask { c with
      multiSubrangeMDPool := multiPool
      singleSubrangeMDPool := singlePool
      multiMD := Function.update c.multiMD multi multiMD
      subMD := Function.update c.subMD sub t.ranges.2.2
      task := Function.update c.task t.identifier ⟨sub, multi, t.ranges.1, t.toDevice⟩ }
    t multi sub calls.submitBuffersToVirtqueue

def statusGood : Nat := 0
def responseOk : Nat := 0
def responseBadTarget : Nat := 3

def parallelTaskCompleted (c : VirtioSCSIController) (t : ParallelTask) (deviceReset : Bool)
    (fromDevice : ReqCmdFromDevice) : VirtioSCSIController :=
  let task := c.task t.identifier
  let c := { c.returnDescriptors task.multiMD task.subMD with outstanding := c.outstanding.erase t }
  let complete (c : VirtioSCSIController) (status : SCSITaskStatus) (response : SCSIServiceResponse)
      (realized : Option Nat) : VirtioSCSIController :=
    { c with completions := c.completions ++ [⟨t.identifier, status, response, realized⟩] }
  if deviceReset then complete c .deviceNotPresent .serviceDeliveryOrTargetFailure none
  else if fromDevice.response = responseOk then
    let transferred := if fromDevice.status = statusGood then
        (t.requestedDataTransferCount + 2^64 - fromDevice.residual) % 2^64 else 0
    complete c (.reported fromDevice.status) .taskComplete (some transferred)
  else if fromDevice.response = responseBadTarget then
    complete (c.destroyTargetForID t.target) .deviceNotPresent .serviceDeliveryOrTargetFailure (some 0)
  else complete c (.reported fromDevice.status) .serviceDeliveryOrTargetFailure (some 0)

end VirtioSCSIController

structure SCSIEvent where
  event : Nat
  lun : List Nat
  reason : Nat
  deriving DecidableEq, Repr

namespace SCSIEvent

def transportReset : Nat := 1
def resetRescan : Nat := 1
def resetRemoved : Nat := 2

/-- The byte of the LUN that holds the target. -/
def target (event : SCSIEvent) : Nat := event.lun.getD 1 0 % 256

end SCSIEvent

namespace VirtioSCSIController

/-- The part of `eventCompleted` that looks at the event. -/
def handleEvent (c : VirtioSCSIController) (event : SCSIEvent) : VirtioSCSIController :=
  if event.event = SCSIEvent.transportReset then
    if event.reason = SCSIEvent.resetRescan then c.createTargetForID event.target
    else if event.reason = SCSIEvent.resetRemoved then c.destroyTargetForID event.target
    else c
  else c

def eventCompleted (c : VirtioSCSIController) (eventBuffer : Nat) (deviceReset : Bool)
    (event : SCSIEvent) (resubmission : IOReturn) : VirtioSCSIController :=
  let c := { c with queuedEvents := c.queuedEvents.erase eventBuffer }
  if deviceReset then { c with releasedEvents := eventBuffer :: c.releasedEvents }
  else
    let c := c.handleEvent event
    if resubmission = .success then { c with queuedEvents := eventBuffer :: c.queuedEvents }
    else { c with releasedEvents := eventBuffer :: c.releasedEvents }

end VirtioSCSIController

inductive SCSIAction where
  | processParallelTask (t : ParallelTask) (calls : TaskCalls)
  | parallelTaskCompleted (t : ParallelTask) (deviceReset : Bool) (fromDevice : ReqCmdFromDevice)
  | eventCompleted (eventBuffer : Nat) (deviceReset : Bool) (event : SCSIEvent)
      (resubmission : IOReturn)

/-- Tasks and event buffers are completed while the device has them. -/
def scsiStep (a : SCSIAction) (c : VirtioSCSIController) : Option VirtioSCSIController :=
  match a with
  | .processParallelTask t calls => (c.processParallelTaskInGate t calls).map Prod.snd
  | .parallelTaskCompleted t deviceReset fromDevice =>
    if t ∈ c.outstanding then some (c.parallelTaskCompleted t deviceReset fromDevice) else none
  | .eventCompleted eventBuffer deviceReset event resubmission =>
    if eventBuffer ∈ c.queuedEvents then
      some (c.eventCompleted eventBuffer deviceReset event resubmission)
    else none

namespace VirtioSCSIController

variable {c c' : VirtioSCSIController} {t : ParallelTask} {calls : TaskCalls}
  {response : SCSIServiceResponse}

open Pool

theorem processParallelTaskInGate_cases
    (processed : c.processParallelTaskInGate t calls = some (response, c')) :
    ∃ multi sub multiMD, multi ∈ c.multiSubrangeMDPool ∧ sub ∈ c.singleSubrangeMDPool ∧
      submitTask { c with
          multiSubrangeMDPool := c.multiSubrangeMDPool.erase multi
          singleSubrangeMDPool := c.singleSubrangeMDPool.erase sub
          multiMD := Function.update c.multiMD multi multiMD
          subMD := Function.update c.subMD sub t.ranges.2.2
          task := Function.update c.task t.identifier ⟨sub, multi, t.ranges.1, t.toDevice⟩ }
        t multi sub calls.submitBuffersToVirtqueue = (response, c') := by
  unfold processParallelTaskInGate at processed
  obtain ⟨⟨multi,_⟩,multiDrawn,processed⟩ := Option.bind_eq_some_iff.mp processed
  obtain ⟨⟨sub,_⟩,subDrawn,processed⟩ := Option.bind_eq_some_iff.mp processed
  obtain ⟨multiMD,_,submitted⟩ := Option.map_eq_some_iff.mp processed
  obtain ⟨multiMember,rfl⟩ := draw_cases multiDrawn
  obtain ⟨subMember,rfl⟩ := draw_cases subDrawn
  exact ⟨multi,sub,multiMD,multiMember,subMember,submitted⟩

theorem processParallelTaskInGate_frame
    (processed : c.processParallelTaskInGate t calls = some (response, c')) :
    c'.present = c.present ∧ c'.queuedEvents = c.queuedEvents ∧
      c'.releasedEvents = c.releasedEvents := by
  obtain ⟨multi,sub,multiMD,_,_,submitted⟩ := processParallelTaskInGate_cases processed
  unfold submitTask at submitted
  split at submitted
  · obtain ⟨_,rfl⟩ := Prod.mk.inj submitted
    exact ⟨rfl,rfl,rfl⟩
  · obtain ⟨_,rfl⟩ := Prod.mk.inj submitted
    exact ⟨rfl,rfl,rfl⟩

/-- Whatever the device answers, a completion gives the task's descriptors back. -/
theorem parallelTaskCompleted_frame (c : VirtioSCSIController) (t : ParallelTask) (deviceReset : Bool)
    (fromDevice : ReqCmdFromDevice) :
    ∃ present completions, c.parallelTaskCompleted t deviceReset fromDevice =
      { c.returnDescriptors (c.task t.identifier).multiMD (c.task t.identifier).subMD with
        outstanding := c.outstanding.erase t
        present := present
        completions := completions } := by
  unfold parallelTaskCompleted
  dsimp only
  split
  · exact ⟨_,_,rfl⟩
  split
  · exact ⟨_,_,rfl⟩
  split
  · exact ⟨_,_,rfl⟩
  · exact ⟨_,_,rfl⟩

theorem startController_frame (c : VirtioSCSIController) :
    ∃ present, c.startController = { c with present := present } := by
  have created (targets : List Nat) (present : List Nat) : ∃ present',
      targets.foldl createTargetForID { c with present := present } =
        { c with present := present' } := by
    induction targets generalizing present with
    | nil => exact ⟨_,rfl⟩
    | cons target rest ih => exact ih (present.insert target)
  unfold startController
  split
  · exact created _ c.present
  · exact ⟨_,rfl⟩

end VirtioSCSIController

end VirtioOsx
