import VirtioOsx.Dma

/-! `submitBuffersToVirtqueueDirect` up to the point where the finished chain is
published, and the publication itself. DMA commands are represented by the outcomes
of their calls. -/
namespace VirtioOsx

/-- The arguments of one `submitBuffersToVirtqueue` call, with the outcomes of the DMA
calls it makes for its two buffers and, in an indirect queue, for the table. -/
structure SubmitCall where
  deviceReadableBuf : Option IOMemoryDescriptor
  deviceWritableBuf : Option IOMemoryDescriptor
  completion : VirtioCompletion
  readable : DmaCalls
  writable : DmaCalls
  table : DmaCalls

/-- A buffer takes part in a request unless it is absent or empty. -/
def describedBuffer (buf : Option IOMemoryDescriptor) : Option IOMemoryDescriptor :=
  buf.filter (fun b => b.length != 0)

def SubmitCall.readableBuffer (call : SubmitCall) : Option IOMemoryDescriptor :=
  describedBuffer call.deviceReadableBuf

def SubmitCall.writableBuffer (call : SubmitCall) : Option IOMemoryDescriptor :=
  describedBuffer call.deviceWritableBuf

def SubmitCall.minDescsRequired (call : SubmitCall) : Nat :=
  (if call.readableBuffer.isSome then 1 else 0) + (if call.writableBuffer.isSome then 1 else 0)

/-- How a part of a submission ends. It is `stuck` when it would use descriptor -1 or
when a rollback loop has not ended after as many steps as the queue has entries. -/
inductive Phase (α : Type) where
  | next (value : α)
  | returned (result : IOReturn) (queue : VirtioVirtqueue)
  | stuck

def Phase.bind (phase : Phase α) (rest : α → Phase β) : Phase β :=
  match phase with
  | .next value => rest value
  | .returned result queue => .returned result queue
  | .stuck => .stuck

@[simp] theorem Phase.bind_next (rest : α → Phase β) :
    (Phase.next value).bind rest = rest value := rfl

@[simp] theorem Phase.bind_returned (rest : α → Phase β) :
    (Phase.returned result queue).bind rest = .returned result queue := rfl

@[simp] theorem Phase.bind_stuck (rest : α → Phase β) : Phase.stuck.bind rest = .stuck := rfl

/-- `table` is the descriptor table or an indirect table; `descriptor` and
`previousDescriptor` are the entries the source has pointers to. -/
def fillVringDescriptor (table : Nat → VirtioVringDesc) (descriptor : Nat) (descriptorIndex : Int)
    (previousDescriptor : Option Nat) (segment : Segment64) (deviceWritable : Bool) :
    Nat → VirtioVringDesc :=
  let table := Function.update table descriptor
    { table descriptor with
      physAddress := segment.fIOVMAddr
      lengthBytes := segment.fLength % 2^32
      flags := if deviceWritable then VirtioVringDescFlag.deviceWritable else 0 }
  let table := match previousDescriptor with
    | none => table
    | some previous => Function.update table previous
      { table previous with
        next := uint16 descriptorIndex
        flags := (table previous).flags ||| VirtioVringDescFlag.next }
  Function.update table descriptor { table descriptor with next := 0xffff }

/-- `virtio_legacy_pci_vring_desc_chain`, with the queue it points to. -/
structure VringDescChain where
  queue : VirtioVirtqueue
  reservedDescriptorIndex : Nat
  currentLastDescriptorIndex : Nat
  deviceWritable : Bool

/-- Use the descriptor that has already been reserved, or claim another one. -/
def claimDescriptor (chain : VringDescChain) : Int × VringDescChain :=
  if chain.reservedDescriptorIndex ≠ uint16Max then
    (int16 chain.reservedDescriptorIndex, { chain with reservedDescriptorIndex := uint16Max })
  else
    let (descriptorIndex, queue) := reserveNewDescriptor chain.queue
    (descriptorIndex, { chain with queue := queue })

/-- Fill a claimed descriptor and hang it behind the chain's last one. -/
def linkDescriptor (chain : VringDescChain) (descriptorIndex : Int) (segment : Segment64) :
    VringDescChain :=
  let descriptor := descriptorIndex.toNat
  let previous := chain.currentLastDescriptorIndex
  let queue := if previous = uint16Max then chain.queue else
    chain.queue.modifyBuffer previous fun buffer => { buffer with nextDesc := descriptorIndex }
  let queue := { queue with
    descriptorTable := fillVringDescriptor queue.descriptorTable descriptor descriptorIndex
      (if previous = uint16Max then none else some previous) segment chain.deviceWritable }
  let queue := queue.modifyBuffer descriptor fun buffer => { buffer with nextDesc := -1 }
  { chain with queue := queue, currentLastDescriptorIndex := uint16 descriptorIndex }

def outputVringDescSegment (chain : VringDescChain) (segment : Segment64) : Option VringDescChain :=
  let (descriptorIndex, chain) := claimDescriptor chain
  if descriptorIndex < 0 then none else some (linkDescriptor chain descriptorIndex segment)

def emitSegments (chain : VringDescChain) (segments : List Segment64) : Option VringDescChain :=
  segments.foldlM outputVringDescSegment chain

/-- The test both halves make after `genIOVMSegments`. -/
def GenOutcome.incomplete (outcome : GenOutcome) (buf : IOMemoryDescriptor) : Bool :=
  outcome.result != .success || outcome.segments.length < 1 || outcome.offset != buf.length

def GenOutcome.failure (outcome : GenOutcome) : IOReturn :=
  if outcome.result = .success then .internalError else outcome.result

def clearDma (i : Nat) (queue : VirtioVirtqueue) : VirtioVirtqueue :=
  if (queue.descriptorBuffers i).dmaCmdUsed then
    queue.modifyBuffer i fun buffer => { buffer with dmaCmd := none, dmaCmdUsed := false }
  else queue

def rollback (visit : Nat → VirtioVirtqueue → VirtioVirtqueue) (result : IOReturn)
    (descriptorIndex : Int) (queue : VirtioVirtqueue) : Phase α :=
  match releaseChain visit queue.numEntries descriptorIndex queue with
  | none => .stuck
  | some queue => .returned result queue

/-- The `device_readable_descs` half. `maxSegments` cannot wrap: the caller has checked
that the minimum number of descriptors is unused. -/
def submitDeviceReadable (queue : VirtioVirtqueue) (buf : IOMemoryDescriptor)
    (completion : VirtioCompletion) (dma : DmaCalls) (minDescsRequired : Nat) :
    Phase (Nat × VringDescChain) :=
  let minDescsRequired := minDescsRequired - 1
  let maxSegments := queue.numUnusedDescriptors - minDescsRequired
  let (descriptorIndex, queue) := reserveNewDescriptor queue
  if descriptorIndex < 0 then .stuck else
  let i := descriptorIndex.toNat
  let queue := queue.modifyBuffer i fun buffer =>
    { buffer with completion := completion, dmaCmdUsed := true }
  if dma.setMemoryDescriptor ≠ .success then
    .returned dma.setMemoryDescriptor (returnUnusedDescriptor queue i)
  else
    let queue := queue.modifyBuffer i fun buffer => { buffer with dmaCmd := some buf }
    let outcome := dma.genIOVMSegments.emit maxSegments
    match emitSegments ⟨queue, uint16 descriptorIndex, uint16Max, false⟩ outcome.segments with
    | none => .stuck
    | some chain =>
      if outcome.incomplete buf then
        let queue := chain.queue.modifyBuffer i fun buffer =>
          { buffer with dmaCmd := none, dmaCmdUsed := false }
        rollback (fun _ queue => queue) outcome.failure descriptorIndex queue
      else .next (uint16 descriptorIndex, chain)

def submitDeviceWritable (firstDescriptorIndex : Nat) (chain : VringDescChain)
    (buf : IOMemoryDescriptor) (completion : VirtioCompletion) (dma : DmaCalls) :
    Phase (Nat × VringDescChain) :=
  let maxSegments := chain.queue.numUnusedDescriptors
  let (descriptorIndex, queue) := reserveNewDescriptor chain.queue
  if descriptorIndex < 0 then .stuck else
  let i := descriptorIndex.toNat
  let queue := if firstDescriptorIndex = uint16Max then
    queue.modifyBuffer i fun buffer => { buffer with completion := completion } else queue
  let firstDescriptorIndex := if firstDescriptorIndex = uint16Max then uint16 descriptorIndex
    else firstDescriptorIndex
  let queue := queue.modifyBuffer i fun buffer => { buffer with dmaCmdUsed := true }
  if dma.setMemoryDescriptor ≠ .success then
    rollback clearDma dma.setMemoryDescriptor (int16 firstDescriptorIndex) queue
  else
    let queue := queue.modifyBuffer i fun buffer => { buffer with dmaCmd := some buf }
    let outcome := dma.genIOVMSegments.emit maxSegments
    match emitSegments ⟨queue, uint16 descriptorIndex, chain.currentLastDescriptorIndex, true⟩
      outcome.segments with
    | none => .stuck
    | some chain =>
      if outcome.incomplete buf then
        let queue := chain.queue.modifyBuffer i fun buffer =>
          { buffer with dmaCmd := none, dmaCmdUsed := false }
        rollback clearDma outcome.failure (int16 firstDescriptorIndex) queue
      else .next (firstDescriptorIndex, chain)

/-- Everything before the publication: the first descriptor of the finished chain and
the queue that holds it. -/
def buildDirectChain (queue : VirtioVirtqueue) (call : SubmitCall) :
    Phase (Nat × VirtioVirtqueue) :=
  if call.minDescsRequired > queue.numEntries then .returned .unsupported queue
  else if call.minDescsRequired = 0 then .returned .badArgument queue
  else if call.minDescsRequired > queue.numUnusedDescriptors then .returned .busy queue
  else
    let readable := match call.readableBuffer with
      | some buf =>
        submitDeviceReadable queue buf call.completion call.readable call.minDescsRequired
      | none => .next (uint16Max, ⟨queue, uint16Max, uint16Max, false⟩)
    readable.bind fun (firstDescriptorIndex, chain) =>
    let writable := match call.writableBuffer with
      | some buf =>
        submitDeviceWritable firstDescriptorIndex chain buf call.completion call.writable
      | none => .next (firstDescriptorIndex, chain)
    writable.bind fun (firstDescriptorIndex, chain) => .next (firstDescriptorIndex, chain.queue)

def readableSegments (queue : VirtioVirtqueue) (call : SubmitCall) : List Segment64 :=
  match call.readableBuffer with
  | some _ => (call.readable.genIOVMSegments.emit
      (queue.numUnusedDescriptors - (call.minDescsRequired - 1))).segments
  | none => []

def writableSegments (queue : VirtioVirtqueue) (call : SubmitCall) : List Segment64 :=
  match call.writableBuffer with
  | some _ => (call.writable.genIOVMSegments.emit
      (queue.numUnusedDescriptors - (readableSegments queue call).length)).segments
  | none => []

/-- The first buffer fails before its reserved descriptor has been linked, while other
descriptors are unused: the rollback loop then starts on a descriptor whose
`next_desc` still continues into the unused list. -/
def HeadUnlinked (queue : VirtioVirtqueue) (call : SubmitCall) : Prop :=
  1 < queue.numUnusedDescriptors ∧
  match call.readableBuffer, call.writableBuffer with
  | some _, _ => call.readable.setMemoryDescriptor = .success ∧ readableSegments queue call = []
  | none, some _ => call.writable.setMemoryDescriptor ≠ .success ∨ writableSegments queue call = []
  | none, none => False

/-- The first store of `virtio_virtqueue_add_descriptor_to_ring`. -/
def writeRingSlot (queue : VirtioVirtqueue) (firstDescriptorIndex : Nat) : VirtioVirtqueue :=
  { queue with availableRing := { queue.availableRing with
      ring := Function.update queue.availableRing.ring
        (queue.availableRing.headIndex % queue.numEntries) firstDescriptorIndex } }

/-- Its second store, after a barrier. -/
def writeHeadIndex (queue : VirtioVirtqueue) : VirtioVirtqueue :=
  { queue with availableRing := { queue.availableRing with
      headIndex := (queue.availableRing.headIndex + 1) % 65536 } }

def virtioVirtqueueAddDescriptorToRing (queue : VirtioVirtqueue) (firstDescriptorIndex : Nat) :
    VirtioVirtqueue :=
  writeHeadIndex (writeRingSlot queue firstDescriptorIndex)

def notifies (queue : VirtioVirtqueue) : Bool :=
  queue.usedRing.flags &&& VirtioVringUsedFlag.noNotify == 0

end VirtioOsx
