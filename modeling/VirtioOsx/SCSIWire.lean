import VirtioOsx.SCSIEndToEnd
import VirtioOsx.WireBuffers

/-! What the device finds when it follows the head of a SCSI request: the command of the task,
the part of the data buffer that it transfers, and the place for the response, in the order of
the protocol, as long as the controller waits for the task. -/
namespace VirtioOsx

open Runs

namespace VirtioSCSIController

variable {c c' : VirtioSCSIController} {t : ParallelTask} {calls : TaskCalls}
  {response : SCSIServiceResponse}

structure TaskHolds (c : VirtioSCSIController) (t : ParallelTask) : Prop where
  toDevice : (c.task t.identifier).toDevice = t.toDevice
  subrange : (c.task t.identifier).subrange = t.ranges.1
  multiMD : MultiSubrangeMD.initWithDescriptorRanges t.identifier t.ranges.1 t.ranges.2.1 =
    some (c.multiMD (c.task t.identifier).multiMD)
  subMD : c.subMD (c.task t.identifier).subMD = t.ranges.2.2

def TasksHeld (c : VirtioSCSIController) : Prop := ∀ t ∈ c.outstanding, c.TaskHolds t

theorem TaskHolds.same (holds : c.TaskHolds t) (task : c'.task t.identifier = c.task t.identifier)
    (multiMD : c'.multiMD (c.task t.identifier).multiMD = c.multiMD (c.task t.identifier).multiMD)
    (subMD : c'.subMD (c.task t.identifier).subMD = c.subMD (c.task t.identifier).subMD) :
    c'.TaskHolds t := by
  obtain ⟨toDevice,subrange,multi,sub⟩ := holds
  refine ⟨?_,?_,?_,?_⟩
  · rw [task,toDevice]
  · rw [task,subrange]
  · rw [task,multiMD,multi]
  · rw [task,subMD,sub]

theorem processParallelTaskInGate_filled
    (processed : c.processParallelTaskInGate t calls = some (response, c')) :
    ∃ multi sub multiMD, multi ∈ c.multiSubrangeMDPool ∧ sub ∈ c.singleSubrangeMDPool ∧
      MultiSubrangeMD.initWithDescriptorRanges t.identifier t.ranges.1 t.ranges.2.1 =
        some multiMD ∧
      submitTask { c with
          multiSubrangeMDPool := c.multiSubrangeMDPool.erase multi
          singleSubrangeMDPool := c.singleSubrangeMDPool.erase sub
          multiMD := Function.update c.multiMD multi multiMD
          subMD := Function.update c.subMD sub t.ranges.2.2
          task := Function.update c.task t.identifier ⟨sub, multi, t.ranges.1, t.toDevice⟩ }
        t multi sub calls.submitBuffersToVirtqueue = (response, c') := by
  unfold processParallelTaskInGate at processed
  obtain ⟨⟨multi,_⟩,multiDrawn,processed⟩ := Option.bind_eq_some_iff.mp processed
  obtain ⟨⟨sub,_⟩,subDrawn,processed⟩ := Option.bind_eq_some_iff.mp processed
  obtain ⟨multiMD,filled,submitted⟩ := Option.map_eq_some_iff.mp processed
  obtain ⟨multiMember,rfl⟩ := Pool.draw_cases multiDrawn
  obtain ⟨subMember,rfl⟩ := Pool.draw_cases subDrawn
  exact ⟨multi,sub,multiMD,multiMember,subMember,filled,submitted⟩

/-- Descriptors from the pools are not those of a task with the device. -/
theorem TasksHeld.process (held : c.TasksHeld) (pools : PoolInv c)
    (fresh : t.identifier ∉ c.outstanding.map ParallelTask.identifier)
    (processed : c.processParallelTaskInGate t calls = some (response, c')) : c'.TasksHeld := by
  obtain ⟨multi,sub,multiMD,multiMember,subMember,filled,submitted⟩ :=
    processParallelTaskInGate_filled processed
  have apart (other : ParallelTask) (member : other ∈ c.outstanding) :
      other.identifier ≠ t.identifier ∧ (c.task other.identifier).multiMD ≠ multi ∧
        (c.task other.identifier).subMD ≠ sub := by
    refine ⟨fun same => fresh (same ▸ List.mem_map_of_mem member),fun same => ?_,fun same => ?_⟩
    · exact pools.multi.pooled.not_held multiMember (List.mem_map.mpr ⟨other,member,same⟩)
    · exact pools.single.pooled.not_held subMember (List.mem_map.mpr ⟨other,member,same⟩)
  unfold submitTask at submitted
  split at submitted
  · obtain ⟨_,rfl⟩ := Prod.mk.inj submitted
    intro other member
    rcases List.mem_cons.mp member with rfl | older
    · constructor
      · simp
      · simp
      · simpa using filled
      · simp
    · obtain ⟨task,multiMD,subMD⟩ := apart other older
      exact (held other older).same (Function.update_of_ne task _ _)
        (Function.update_of_ne multiMD _ _) (Function.update_of_ne subMD _ _)
  · obtain ⟨_,rfl⟩ := Prod.mk.inj submitted
    intro other member
    obtain ⟨task,multiMD,subMD⟩ := apart other member
    refine (held other member).same (Function.update_of_ne task _ _) ?_ ?_
    · simp [returnDescriptors,Function.update_of_ne multiMD]
    · simp [returnDescriptors,Function.update_of_ne subMD]

theorem TasksHeld.completed (held : c.TasksHeld) (pools : PoolInv c) (member : t ∈ c.outstanding)
    (deviceReset : Bool) (fromDevice : ReqCmdFromDevice) :
    (c.parallelTaskCompleted t deviceReset fromDevice).TasksHeld := by
  obtain ⟨present,completions,same⟩ := parallelTaskCompleted_frame c t deviceReset fromDevice
  have split := List.perm_cons_erase member
  have multi := (split.map fun t : ParallelTask => (c.task t.identifier).multiMD).nodup_iff.mp
    pools.multi.pooled.held_nodup
  have single := (split.map fun t : ParallelTask => (c.task t.identifier).subMD).nodup_iff.mp
    pools.single.pooled.held_nodup
  rw [same]
  intro other remains
  have multiMD : (c.task other.identifier).multiMD ≠ (c.task t.identifier).multiMD :=
    fun equal => (List.nodup_cons.mp multi).1 (List.mem_map.mpr ⟨other,remains,equal⟩)
  have subMD : (c.task other.identifier).subMD ≠ (c.task t.identifier).subMD :=
    fun equal => (List.nodup_cons.mp single).1 (List.mem_map.mpr ⟨other,remains,equal⟩)
  exact (held other (List.mem_of_mem_erase remains)).same rfl (Function.update_of_ne multiMD _ _)
    (Function.update_of_ne subMD _ _)

theorem TasksHeld.keeps (held : c.TasksHeld) (pools : PoolInv c) (promised : Promised c a)
    (taken : scsiStep a c = some c') : c'.TasksHeld := by
  cases a with
  | processParallelTask t calls =>
    obtain ⟨⟨response,_⟩,processed,rfl⟩ := Option.map_eq_some_iff.mp taken
    exact held.process pools promised.2 processed
  | parallelTaskCompleted t deviceReset fromDevice =>
    simp only [scsiStep] at taken
    split at taken
    case isFalse => cases taken
    rename_i member
    obtain rfl := Option.some.inj taken
    exact held.completed pools member deviceReset fromDevice
  | eventCompleted eventBuffer deviceReset event resubmission =>
    simp only [scsiStep] at taken
    split at taken
    case isFalse => cases taken
    obtain rfl := Option.some.inj taken
    obtain ⟨_,_,_,same⟩ := eventCompleted_frame c eventBuffer deviceReset event resubmission
    rw [same]
    exact fun t member => (held t member).same rfl rfl rfl

end VirtioSCSIController

/-- The subranges that are within their descriptors, with their memory. -/
def locate (mem : Nat → PhysicalMemory) (list : List MemoryDescriptorSubrange) : List Subrange :=
  list.flatMap fun s => s.md.elim [] fun md => (mem md).part s.offset s.length

def SubMD.subrange (s : SubMD) : MemoryDescriptorSubrange := ⟨s.parent, s.start, s.length⟩

namespace ParallelTask

def toDeviceRanges (t : ParallelTask) : List MemoryDescriptorSubrange :=
  match t.direction with
  | .fromTargetToInitiator => [t.ranges.2.2.subrange]
  | _ => t.ranges.1

def fromDeviceRanges (t : ParallelTask) : List MemoryDescriptorSubrange :=
  match t.direction with
  | .fromTargetToInitiator => t.ranges.1
  | _ => [t.ranges.2.2.subrange]

/-- The `virtio_scsi_req_cmd_to_device` in the memory of the task. -/
def commandBytes (mem : Nat → PhysicalMemory) (t : ParallelTask) : List Nat :=
  (mem t.requestBuffer).bytes SCSITask.toDeviceOffset SCSITask.toDeviceSize

def responseBytes (mem : Nat → PhysicalMemory) (t : ParallelTask) : List Nat :=
  (mem t.requestBuffer).bytes SCSITask.fromDeviceOffset SCSITask.fromDeviceSize

def dataBytes (mem : Nat → PhysicalMemory) (t : ParallelTask) : List Nat :=
  match t.dataBuffer with
  | none => []
  | some buffer => (mem buffer.identity).bytes t.dataBufferOffset t.dataSize

def outgoing (mem : Nat → PhysicalMemory) (t : ParallelTask) : List Nat :=
  match t.direction with
  | .fromInitiatorToTarget => t.commandBytes mem ++ t.dataBytes mem
  | _ => t.commandBytes mem

def incoming (mem : Nat → PhysicalMemory) (t : ParallelTask) : List Nat :=
  match t.direction with
  | .fromTargetToInitiator => t.responseBytes mem ++ t.dataBytes mem
  | _ => t.responseBytes mem

/-- The memory of a task has room for a `virtio_scsi_task`, and the data begins within its
buffer. -/
structure Placed (mem : Nat → PhysicalMemory) (t : ParallelTask) : Prop where
  requestBuffer : SCSITask.fromDeviceOffset + SCSITask.fromDeviceSize ≤ (mem t.requestBuffer).length
  dataBuffer : ∀ buffer, t.dataBuffer = some buffer →
    (mem buffer.identity).length = buffer.length ∧ t.dataBufferOffset ≤ buffer.length ∧
      SCSITask.fromDeviceSize + buffer.length < 2^64

variable {mem : Nat → PhysicalMemory} {t : ParallelTask}

theorem Placed.data (placed : t.Placed mem) {buffer : IOMemoryDescriptor}
    (there : t.dataBuffer = some buffer) :
    t.dataBufferOffset + t.dataSize ≤ (mem buffer.identity).length ∧
      SCSITask.fromDeviceSize + t.dataSize < 2^64 := by
  obtain ⟨length,offset,small⟩ := placed.dataBuffer buffer there
  have size : t.dataSize ≤ buffer.length - t.dataBufferOffset := by
    unfold dataSize
    rw [there]
    refine (Nat.min_le_right _ _).trans ?_
    dsimp only
    omega
  omega

structure Covers (mem : Nat → PhysicalMemory) (list : List MemoryDescriptorSubrange) (total : Nat)
    (addresses : List Nat) : Prop where
  size : totalLength (locate mem list) = total
  located : byteAddresses (locate mem list) = addresses

theorem Covers.nil : Covers mem [] 0 [] := ⟨rfl,rfl⟩

theorem Covers.cons {addresses : List Nat} (rest : Covers mem list more addresses)
    {md offset length : Nat} (inside : offset + length ≤ (mem md).length) :
    Covers mem (⟨some md, offset, length⟩ :: list) (length + more)
      ((mem md).bytes offset length ++ addresses) := by
  obtain ⟨size,located⟩ := PhysicalMemory.part_append inside (locate mem list)
  exact ⟨size.trans (by rw [rest.size]),located.trans (by rw [rest.located])⟩

theorem Placed.command (placed : t.Placed mem) {addresses : List Nat}
    (rest : Covers mem list more addresses) :
    Covers mem (⟨some t.requestBuffer, SCSITask.toDeviceOffset, SCSITask.toDeviceSize⟩ :: list)
      (SCSITask.toDeviceSize + more)
      (t.commandBytes mem ++ addresses) := by
  have room := placed.requestBuffer
  refine rest.cons (le_trans ?_ room)
  simp [SCSITask.toDeviceOffset,SCSITask.toDeviceSize,SCSITask.fromDeviceOffset,
    SCSITask.fromDeviceSize]

theorem Placed.response (placed : t.Placed mem) {addresses : List Nat}
    (rest : Covers mem list more addresses) :
    Covers mem (⟨some t.requestBuffer, SCSITask.fromDeviceOffset, SCSITask.fromDeviceSize⟩ :: list)
      (SCSITask.fromDeviceSize + more)
      (t.responseBytes mem ++ addresses) :=
  rest.cons placed.requestBuffer

theorem Placed.last (placed : t.Placed mem) {buffer : IOMemoryDescriptor}
    (there : t.dataBuffer = some buffer) :
    Covers mem [⟨some buffer.identity, t.dataBufferOffset, t.dataSize⟩] t.dataSize
      (t.dataBytes mem) := by
  have covers := Covers.nil.cons (placed.data there).1
  simp only [Nat.add_zero,List.append_nil] at covers
  simpa [dataBytes,there] using covers

/-- What is passed to the transport is the command and the response, and the data on the side
on which it goes. -/
structure Passes (mem : Nat → PhysicalMemory) (t : ParallelTask) (call : SubmitCall) : Prop where
  measures : call.Measures (locate mem t.toDeviceRanges) (locate mem t.fromDeviceRanges)
  outgoing : byteAddresses (locate mem t.toDeviceRanges) = t.outgoing mem
  incoming : byteAddresses (locate mem t.fromDeviceRanges) = t.incoming mem

theorem Covers.passes {call : SubmitCall} (out back : Nat)
    (sent : Covers mem t.toDeviceRanges out (t.outgoing mem))
    (got : Covers mem t.fromDeviceRanges back (t.incoming mem))
    (readable : call.deviceReadableBuf.map IOMemoryDescriptor.length = some out)
    (writable : call.deviceWritableBuf.map IOMemoryDescriptor.length = some back)
    (positive : 0 < out ∧ 0 < back) : t.Passes mem call := by
  obtain ⟨buf,first,rfl⟩ := Option.map_eq_some_iff.mp readable
  obtain ⟨writableBuf,second,rfl⟩ := Option.map_eq_some_iff.mp writable
  refine ⟨⟨⟨buf,?_,sent.size.symm⟩,writableBuf,?_,got.size.symm⟩,sent.located,got.located⟩
  · rw [SubmitCall.readableBuffer,first]
    exact describedBuffer_some _ positive.1
  · rw [SubmitCall.writableBuffer,second]
    exact describedBuffer_some _ positive.2

/-- A task that transfers data has a buffer, or its ranges could not be set. -/
theorem dataBuffer_of_filled
    (filled : MultiSubrangeMD.initWithDescriptorRanges t.identifier t.ranges.1 t.ranges.2.1 =
      some multiMD) (transfers : t.direction ≠ .noDataTransfer) :
    ∃ buffer, t.dataBuffer = some buffer := by
  unfold MultiSubrangeMD.initWithDescriptorRanges at filled
  split at filled
  case isFalse => cases filled
  rename_i all
  cases way : t.direction with
  | noDataTransfer => exact absurd way transfers
  | fromInitiatorToTarget => simpa [ranges,way,Option.isSome_iff_exists] using all
  | fromTargetToInitiator => simpa [ranges,way,Option.isSome_iff_exists] using all

theorem Placed.passes (placed : t.Placed mem)
    (filled : MultiSubrangeMD.initWithDescriptorRanges t.identifier t.ranges.1 t.ranges.2.1 =
      some multiMD) (multi sub : Nat) (dma : SubmitDma) :
    t.Passes mem (t.submitCall multi sub dma) := by
  have command := placed.command .nil
  have response := placed.response .nil
  rw [List.append_nil,Nat.add_zero] at command response
  cases way : t.direction with
  | noDataTransfer =>
    refine Covers.passes SCSITask.toDeviceSize SCSITask.fromDeviceSize ?_ ?_ ?_ ?_ (by decide)
    · simpa [toDeviceRanges,ranges,way,outgoing] using command
    · simpa [fromDeviceRanges,ranges,way,incoming,SubMD.subrange,SubMD.initSubRange] using response
    · simp [submitCall,ranges,way,SCSITask.toDeviceSize]
    · simp [submitCall,ranges,way,SubMD.initSubRange]
  | fromInitiatorToTarget =>
    obtain ⟨buffer,there⟩ := dataBuffer_of_filled filled (by rw [way]; decide)
    have whole := placed.command (placed.last there)
    have small : (SCSITask.toDeviceSize + t.dataSize) % 2^64 = SCSITask.toDeviceSize + t.dataSize :=
      Nat.mod_eq_of_lt (lt_of_le_of_lt (Nat.add_le_add_right (by decide) _) (placed.data there).2)
    refine Covers.passes (SCSITask.toDeviceSize + t.dataSize) SCSITask.fromDeviceSize ?_ ?_ ?_ ?_
      ⟨Nat.add_pos_left (Nat.succ_pos 34) _,Nat.succ_pos 107⟩
    · simpa [toDeviceRanges,ranges,way,outgoing,there] using whole
    · simpa [fromDeviceRanges,ranges,way,incoming,SubMD.subrange,SubMD.initSubRange] using response
    · simpa [submitCall,ranges,way] using small
    · simp [submitCall,ranges,way,SubMD.initSubRange]
  | fromTargetToInitiator =>
    obtain ⟨buffer,there⟩ := dataBuffer_of_filled filled (by rw [way]; decide)
    have whole := placed.response (placed.last there)
    have small : (SCSITask.fromDeviceSize + t.dataSize) % 2^64 =
        SCSITask.fromDeviceSize + t.dataSize := Nat.mod_eq_of_lt (placed.data there).2
    refine Covers.passes SCSITask.toDeviceSize (SCSITask.fromDeviceSize + t.dataSize) ?_ ?_ ?_ ?_
      ⟨Nat.succ_pos 34,Nat.add_pos_left (Nat.succ_pos 107) _⟩
    · simpa [toDeviceRanges,ranges,way,outgoing,SubMD.subrange,SubMD.initSubRange] using command
    · simpa [fromDeviceRanges,ranges,way,incoming,there] using whole
    · simp [submitCall,ranges,way,SubMD.initSubRange]
    · simpa [submitCall,ranges,way] using small

end ParallelTask

open VirtioSCSIController

namespace SCSISystem

variable {s s' : SCSISystem} {mem : Nat → PhysicalMemory} {events requests : VirtioVirtqueue}
  {first : VirtioSCSIController}

/-- The commands of the submission of a task map its descriptors. -/
def Wired (mem : Nat → PhysicalMemory) (s : SCSISystem) (a : SCSISystemAction) : Prop :=
  s.Allowed a ∧ ∀ t multiChoice singleChoice dma,
    a = .processParallelTask t multiChoice singleChoice dma → t.Placed mem ∧
      ∀ asked, s.submission a = some asked → asked.2.MapsTo (s.machine .requests).queue
        (locate mem t.toDeviceRanges) (locate mem t.fromDeviceRanges)

/-- What a task that is handed over has written, whether or not it could be submitted. -/
theorem processParallelTask_written
    (taken : s.processParallelTask t multiChoice singleChoice dma = some s') :
    s'.task = Function.update s.task t.identifier t ∧ ∃ multiMD,
      MultiSubrangeMD.initWithDescriptorRanges t.identifier t.ranges.1 t.ranges.2.1 =
        some multiMD := by
  unfold SCSISystem.processParallelTask at taken
  split at taken
  case isFalse => cases taken
  obtain ⟨asked,_,rest⟩ := Option.bind_eq_some_iff.mp taken
  obtain ⟨sent,_,rest⟩ := Option.bind_eq_some_iff.mp rest
  obtain ⟨⟨response,c⟩,processed,rfl⟩ := Option.map_eq_some_iff.mp rest
  obtain ⟨_,_,multiMD,_,_,filled,_⟩ := processParallelTaskInGate_filled processed
  exact ⟨rfl,multiMD,filled⟩

/-- A task with the device is not written again. -/
theorem Agrees.task_kept (agrees : s.Agrees) (allowed : s.Allowed a)
    (taken : scsiSystemStep a s = some s') (member : r ∈ (s.machine .requests).inflight) :
    s'.task r.completion.ref = s.task r.completion.ref := by
  cases a with
  | processParallelTask t multiChoice singleChoice dma =>
    obtain ⟨there,completion⟩ := agrees.tasks.owner member
    rw [(processParallelTask_written taken).1]
    refine Function.update_of_ne (fun same => allowed.1.2 ?_) _ _
    have named : (s.task r.completion.ref).identifier = r.completion.ref := by
      conv_rhs => rw [completion]
      rfl
    rw [← same,← named]
    exact List.mem_map_of_mem there
  | repost dma =>
    obtain ⟨_,_,rest⟩ := Option.bind_eq_some_iff.mp taken
    obtain ⟨_,_,rfl⟩ := Option.map_eq_some_iff.mp rest
    rfl
  | advance queue =>
    simp only [scsiSystemStep,SCSISystem.advance] at taken
    split at taken
    case isFalse => cases taken
    obtain ⟨m,_,rfl⟩ := Option.map_eq_some_iff.mp taken
    split
    · rfl
    · unfold completed
      split
      · rfl
      · rfl
  | writeFromDevice identifier data =>
    simp only [scsiSystemStep,SCSISystem.writeFromDevice] at taken
    split at taken
    case isFalse => cases taken
    obtain rfl := Option.some.inj taken
    rfl
  | writeEvent eventBuffer event =>
    simp only [scsiSystemStep,SCSISystem.writeEvent] at taken
    split at taken
    case isFalse => cases taken
    obtain rfl := Option.some.inj taken
    rfl
  | complete queue position writtenBytes =>
    obtain ⟨_,_,rest⟩ := Option.bind_eq_some_iff.mp taken
    obtain ⟨_,_,rfl⟩ := Option.map_eq_some_iff.mp rest
    cases queue with
    | events => rfl
    | requests => rfl
  | transport queue a =>
    simp only [scsiSystemStep,SCSISystem.transport] at taken
    split at taken
    case isFalse => cases taken
    obtain ⟨_,_,rfl⟩ := Option.map_eq_some_iff.mp taken
    rfl

theorem submission_requests (asked : s.submission a = some (.requests, call)) :
    ∃ t multiChoice singleChoice multi sub dma,
      a = .processParallelTask t multiChoice singleChoice dma ∧ call = t.submitCall multi sub dma := by
  cases a with
  | processParallelTask t multiChoice singleChoice dma =>
    obtain ⟨multi,_,rest⟩ := Option.bind_eq_some_iff.mp asked
    obtain ⟨sub,_,same⟩ := Option.map_eq_some_iff.mp rest
    exact ⟨t,multiChoice,singleChoice,multi.1,sub.1,dma,rfl,(Prod.mk.inj same).2.symm⟩
  | repost dma =>
    obtain ⟨_,_,same⟩ := Option.map_eq_some_iff.mp asked
    cases (Prod.mk.inj same).1
  | advance | writeFromDevice | writeEvent | complete | transport => cases asked

/-- Every request in flight is found as the bytes of its task. -/
def TasksOnWire (mem : Nat → PhysicalMemory) (s : SCSISystem) : Prop :=
  ∀ r ∈ (s.machine .requests).inflight, FoundOnWire (s.machine .requests).queue r
    ((s.task r.completion.ref).outgoing mem) ((s.task r.completion.ref).incoming mem)

theorem TasksOnWire.keeps (wire : TasksOnWire mem s) (refines : Refines n k events requests first s)
    (wired : Wired mem s a) (taken : scsiSystemStep a s = some s') : TasksOnWire mem s' := by
  obtain ⟨allowed,maps⟩ := wired
  obtain ⟨lost,inv⟩ := refines.requestInv
  intro r member
  have old (before : r ∈ (s.machine .requests).inflight)
      (kept : Kept r (s.machine .requests).queue (s'.machine .requests).queue) :
      FoundOnWire (s'.machine .requests).queue r ((s'.task r.completion.ref).outgoing mem)
        ((s'.task r.completion.ref).incoming mem) := by
    rw [refines.agrees.task_kept allowed taken before]
    exact (wire r before).kept kept
  cases (refines.stepped allowed taken).queues.moves .requests with
  | stays same =>
    rw [same] at member
    refine old member ?_
    rw [same]
    exact ⟨rfl,fun _ _ => rfl,fun _ _ => rfl⟩
  | steps b sound moved asked =>
    rcases inv.entered moved member with before | ⟨call,rfl,accepted,completion⟩
    · exact old before (inv.kept sound moved before member)
    · have asked := asked call rfl
      obtain ⟨t,multiChoice,singleChoice,multi,sub,dma,rfl,rfl⟩ := submission_requests asked
      obtain ⟨placed,maps⟩ := maps t multiChoice singleChoice dma rfl
      obtain ⟨written,multiMD,filled⟩ := processParallelTask_written taken
      have passes := placed.passes filled multi sub dma
      have found := inv.accepted_found (maps _ asked) passes.measures moved accepted
      rw [passes.outgoing,passes.incoming] at found
      have owner : s'.task r.completion.ref = t := by
        rw [completion,written]
        exact Function.update_self _ _ _
      rw [owner]
      exact found

theorem Started.idle {started : SCSISystem} (begun : Started n events requests started) :
    started.controller.outstanding = [] ∧ (started.machine .requests).inflight = [] := by
  obtain ⟨k,refines⟩ := begun.run .nil
  have none : started.controller.outstanding = [] := begun.ledger.accepted.nil_eq.symm
  have owns := refines.agrees.tasks.owns
  rw [none,List.map_nil] at owns
  exact ⟨none,List.map_eq_nil_iff.mp owns.eq_nil⟩

end SCSISystem

def pages (md : Nat) : PhysicalMemory :=
  .atAddress (1048576 * (1 + md)) page.length page.addressable

end VirtioOsx
