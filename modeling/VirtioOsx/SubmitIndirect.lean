import VirtioOsx.SubmitDirect

/-! `submitBuffersToVirtqueueIndirect` up to the publication of its single descriptor,
and the choice between the two kinds of submission. -/
namespace VirtioOsx

/-- `virtio_output_indirect_segment_state`; `descArray` names the descriptor whose
table the source has a pointer to. -/
structure IndirectSegmentState where
  queue : VirtioVirtqueue
  descArray : Nat
  nextDescriptorIndex : Nat
  writable : Bool

def outputIndirectVringDescSegment (state : IndirectSegmentState) (segment : Segment64) :
    IndirectSegmentState :=
  let index := state.nextDescriptorIndex
  { state with
    queue := state.queue.modifyBuffer state.descArray fun buffer =>
      { buffer with indirectDescriptors := { buffer.indirectDescriptors with
          entries := fillVringDescriptor buffer.indirectDescriptors.entries index (int16 index)
            (if index = 0 then none else some (index - 1)) segment state.writable } }
    nextDescriptorIndex := (index + 1) % 65536 }

/-- Called for every segment of the table itself. -/
def outputVringDescSegmentForIndirectTable (mainDescriptorIndex : Nat) (queue : VirtioVirtqueue)
    (segment : Segment64) : VirtioVirtqueue :=
  let table := fillVringDescriptor queue.descriptorTable mainDescriptorIndex mainDescriptorIndex none
    segment false
  let table := Function.update table mainDescriptorIndex
    { table mainDescriptorIndex with flags := VirtioVringDescFlag.indirect }
  { queue with descriptorTable := table }

structure GenerateResult where
  result : IOReturn
  minDescsRequired : Nat
  maxSegments : Nat
  output : IndirectSegmentState

/-- `attach` sets the memory descriptor of the command that is used. The result of
`setMemoryDescriptor` is overwritten before it is looked at. -/
def generateIndirectSegmentDma (attach : Option IOMemoryDescriptor → VirtioBuffer → VirtioBuffer)
    (buf : IOMemoryDescriptor) (dma : DmaCalls) (minDescsRequired maxSegments : Nat)
    (output : IndirectSegmentState) : GenerateResult :=
  let output := if dma.setMemoryDescriptor = .success then
    { output with queue := output.queue.modifyBuffer output.descArray (attach (some buf)) } else output
  let minDescsRequired := minDescsRequired - 1
  let outcome := dma.genIOVMSegments.emit (maxSegments - minDescsRequired)
  let output := outcome.segments.foldl outputIndirectVringDescSegment output
  if outcome.result ≠ .success ∨ maxSegments < 1 ∨ outcome.offset ≠ buf.length then
    ⟨outcome.failure, minDescsRequired, maxSegments,
      { output with queue := output.queue.modifyBuffer output.descArray (attach none) }⟩
  else ⟨.success, minDescsRequired, maxSegments - outcome.segments.length, output⟩

def attachFirst (md : Option IOMemoryDescriptor) (buffer : VirtioBuffer) : VirtioBuffer :=
  { buffer with dmaCmd := md }

def attachSecond (md : Option IOMemoryDescriptor) (buffer : VirtioBuffer) : VirtioBuffer :=
  { buffer with dmaCmd2 := md }

def sizeofTableEntry : Nat := 16

def generateReadable (queue : VirtioVirtqueue) (i : Nat) (call : SubmitCall) (maxSegments : Nat) :
    GenerateResult :=
  match call.readableBuffer with
  | some buf => generateIndirectSegmentDma attachFirst buf call.readable call.minDescsRequired
      maxSegments ⟨queue, i, 0, false⟩
  | none => ⟨.success, call.minDescsRequired, maxSegments, ⟨queue, i, 0, false⟩⟩

/-- The writable half, with what the readable half left in the shared variables. -/
def generateWritable (call : SubmitCall) (readable : GenerateResult) : GenerateResult :=
  match call.writableBuffer with
  | some buf => generateIndirectSegmentDma attachSecond buf call.writable
      readable.minDescsRequired readable.maxSegments { readable.output with writable := true }
  | none => readable

def fillIndirectTable (queue : VirtioVirtqueue) (i : Nat) (call : SubmitCall) (maxSegments : Nat) :
    Phase IndirectSegmentState :=
  let readable := generateReadable queue i call maxSegments
  if readable.result ≠ .success then
    .returned readable.result (returnUnusedDescriptor readable.output.queue i)
  else
    let writable := generateWritable call readable
    if writable.result ≠ .success then
      let queue := if call.readableBuffer.isSome then
        writable.output.queue.modifyBuffer i (attachFirst none) else writable.output.queue
      .returned writable.result (returnUnusedDescriptor queue i)
    else .next writable.output

def describeIndirectTable (output : IndirectSegmentState) (i : Nat) (call : SubmitCall) :
    Phase (Nat × VirtioVirtqueue) :=
  let length := output.nextDescriptorIndex * sizeofTableEntry
  let queue := output.queue.modifyBuffer i fun buffer =>
    { buffer with indirectDescriptors := { buffer.indirectDescriptors with length := length } }
  if call.table.setMemoryDescriptor ≠ .success then
    let queue := queue.modifyBuffer i fun buffer => { buffer with dmaCmd := none, dmaCmd2 := none }
    .returned call.table.setMemoryDescriptor (returnUnusedDescriptor queue i)
  else
    let queue := queue.modifyBuffer i fun buffer => { buffer with dmaIndirectDescriptors := true }
    let outcome := call.table.genIOVMSegments.emit 1
    let queue := outcome.segments.foldl (outputVringDescSegmentForIndirectTable i) queue
    if outcome.result ≠ .success ∨ outcome.segments.length < 1 ∨ outcome.offset ≠ length then
      let queue := queue.modifyBuffer i fun buffer =>
        { buffer with dmaIndirectDescriptors := false, dmaCmd := none, dmaCmd2 := none }
      .returned outcome.result (returnUnusedDescriptor queue i)
    else
      .next (i, queue.modifyBuffer i fun buffer =>
        { buffer with completion := call.completion, nextDesc := -1 })

def tableSlots (queue : VirtioVirtqueue) (i : Nat) : Nat :=
  (queue.descriptorBuffers i).indirectDescriptors.capacity / sizeofTableEntry % 2^32

/-- Everything before the publication. The descriptor is reserved first, and the checks
on the number of segments come after that. -/
def buildIndirectChain (queue : VirtioVirtqueue) (call : SubmitCall) :
    Phase (Nat × VirtioVirtqueue) :=
  let (mainDescriptorIndex, queue) := reserveNewDescriptor queue
  if mainDescriptorIndex < 0 then .returned .busy queue else
  let i := mainDescriptorIndex.toNat
  let queue := queue.modifyBuffer i fun buffer =>
    { buffer with indirectDescriptors := { buffer.indirectDescriptors with
        length := buffer.indirectDescriptors.capacity } }
  let maxSegments := tableSlots queue i
  if call.minDescsRequired > maxSegments then .returned .unsupported queue
  else if call.minDescsRequired = 0 then .returned .badArgument queue
  else
    let queue := queue.modifyBuffer i fun buffer => { buffer with dmaCmdUsed := true }
    (fillIndirectTable queue i call maxSegments).bind fun output =>
      describeIndirectTable output i call

/-- What `genIOVMSegments` is asked for the readable buffer when the table has `slots`
entries. -/
def readableOutcome (slots : Nat) (call : SubmitCall) : GenOutcome :=
  call.readable.genIOVMSegments.emit (slots - (call.minDescsRequired - 1))

def indirectReadable (slots : Nat) (call : SubmitCall) : List Segment64 :=
  if call.readableBuffer.isSome then (readableOutcome slots call).segments else []

def writableOutcome (slots : Nat) (call : SubmitCall) : GenOutcome :=
  call.writable.genIOVMSegments.emit (slots - (indirectReadable slots call).length)

def indirectWritable (slots : Nat) (call : SubmitCall) : List Segment64 :=
  if call.writableBuffer.isSome then (writableOutcome slots call).segments else []

/-- The number of table entries a request takes, as `next_descriptor_index` counts them. -/
def indirectCount (slots : Nat) (call : SubmitCall) : Nat :=
  ((indirectReadable slots call).length + (indirectWritable slots call).length) % 65536

def GenOutcome.Covers (outcome : GenOutcome) (buf : IOMemoryDescriptor) : Prop :=
  outcome.result = .success ∧ outcome.offset = buf.length

/-- The buffers have been written to a table of `slots` entries, and the command that maps
the table reports success without having mapped all of it. -/
structure TableUncovered (slots : Nat) (call : SubmitCall) : Prop where
  nonempty : call.minDescsRequired ≠ 0
  fits : call.minDescsRequired ≤ slots
  readable : ∀ buf, call.readableBuffer = some buf → (readableOutcome slots call).Covers buf
  writable : ∀ buf, call.writableBuffer = some buf → (writableOutcome slots call).Covers buf
  attached : call.table.setMemoryDescriptor = .success
  generated : (call.table.genIOVMSegments.emit 1).result = .success
  uncovered : (call.table.genIOVMSegments.emit 1).segments.length < 1 ∨
    (call.table.genIOVMSegments.emit 1).offset ≠ indirectCount slots call * sizeofTableEntry

def buildChain (queue : VirtioVirtqueue) (call : SubmitCall) : Phase (Nat × VirtioVirtqueue) :=
  if queue.indirectDescriptors then buildIndirectChain queue call
  else buildDirectChain queue call

structure SubmitReturn where
  result : IOReturn
  queue : VirtioVirtqueue
  notified : Bool

/-- A whole call on one queue; absent when it is stuck. -/
def submitBuffers (queue : VirtioVirtqueue) (call : SubmitCall) : Option SubmitReturn :=
  match buildChain queue call with
  | .next (head, queue) =>
    let queue := virtioVirtqueueAddDescriptorToRing queue head
    some ⟨.success, queue, notifies queue⟩
  | .returned result queue => some ⟨result, queue, false⟩
  | .stuck => none

theorem submitBuffers_cases {q : VirtioVirtqueue} (returned : submitBuffers q call = some ret) :
    (∃ head q', buildChain q call = .next (head, q') ∧ ret.result = .success ∧
      ret.queue = virtioVirtqueueAddDescriptorToRing q' head) ∨
    buildChain q call = .returned ret.result ret.queue := by
  unfold submitBuffers at returned
  split at returned
  · rename_i head q' built
    obtain rfl := Option.some.inj returned
    exact .inl ⟨head,q',built,rfl,rfl⟩
  · rename_i result q' left
    obtain rfl := Option.some.inj returned
    exact .inr left
  · cases returned

/-- The call a client makes, on the queues of a device. -/
def submitBuffersToVirtqueue (virtqueues : List VirtioVirtqueue) (queueIndex : Nat)
    (call : SubmitCall) : Option (IOReturn × List VirtioVirtqueue) :=
  match virtqueues[queueIndex]? with
  | none => some (.badArgument, virtqueues)
  | some queue => (submitBuffers queue call).map fun ret =>
    (ret.result, virtqueues.set queueIndex ret.queue)

end VirtioOsx
