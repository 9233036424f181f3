import Mathlib.Data.Nat.Bitwise
import VirtioOsx.DeviceClients
import VirtioOsx.EmissionBounds

/-! The limits that the block device derives from what its device reports, and what the
transport makes of requests that keep to them. -/
namespace VirtioOsx

/-- One half of a table is written exactly if its command covers the buffer. -/
theorem generateIndirectSegmentDma_success_iff
    (attach : Option IOMemoryDescriptor → VirtioBuffer → VirtioBuffer) (buf : IOMemoryDescriptor)
    (dma : DmaCalls) (min max : Nat) (output : IndirectSegmentState) (room : 0 < max) :
    (generateIndirectSegmentDma attach buf dma min max output).result = .success ↔
      (dma.genIOVMSegments.emit (max - (min - 1))).Covers buf := by
  have failed := GenOutcome.failure_ne (dma.genIOVMSegments.emit (max - (min - 1)))
  unfold generateIndirectSegmentDma
  dsimp only
  split
  · rename_i short
    refine iff_of_false failed fun covers => ?_
    rcases short with result | empty | offset
    · exact result covers.1
    · omega
    · exact offset covers.2
  · rename_i whole
    push Not at whole
    exact iff_of_true rfl ⟨whole.1,whole.2.2⟩

/-- A command that stops only at its limit covers a buffer within that limit. -/
theorem ScatterList.covers_iff (list : ScatterList) (size : buf.length = byteCount list.segments) :
    (list.genIOVMSegments.emit limit).Covers buf ↔ list.segments.length ≤ limit := by
  rw [← list.byteCount_take,GenOutcome.Covers,size]
  exact ⟨fun covers => covers.2,fun covered => ⟨rfl,covered⟩⟩

theorem Phase.returned_not_next (result : IOReturn) (q : VirtioVirtqueue) :
    ¬∃ value : α, (Phase.returned result q : Phase α) = .next value := by
  rintro ⟨_,next⟩
  cases next

section

variable {r w t : ScatterList}

theorem Fragmented.readable_length (fragmented : Fragmented call r w)
    (readable : call.readableBuffer = some first) (writable : call.writableBuffer = some second)
    (slots : Nat) (fits : r.segments.length ≤ slots - 1) :
    (indirectReadable slots call).length = r.segments.length := by
  have two : call.minDescsRequired = 2 := by
    simp [SubmitCall.minDescsRequired,readable,writable]
  simp only [indirectReadable,readable,Option.isSome_some,if_true,readableOutcome,
    fragmented.readable,two]
  exact congrArg List.length (List.take_of_length_le fits)

theorem Fragmented.count_eq (fragmented : Fragmented call r w)
    (readable : call.readableBuffer = some first) (writable : call.writableBuffer = some second)
    (fits : r.segments.length + w.segments.length ≤ slots) :
    indirectCount slots call = (r.segments.length + w.segments.length) % 65536 := by
  have other := segments_pos writable (fragmented.writableLength second writable)
  have length := fragmented.readable_length readable writable slots (by omega)
  have rest : w.segments.length ≤ slots - r.segments.length := by omega
  rw [indirectCount,length]
  simp only [indirectWritable,writable,Option.isSome_some,if_true,writableOutcome,
    fragmented.writable,length]
  exact congrArg (fun l => (r.segments.length + l) % 65536)
    (congrArg List.length (List.take_of_length_le rest))

theorem Fragmented.fill_next_iff (fragmented : Fragmented call r w)
    (readable : call.readableBuffer = some first) (writable : call.writableBuffer = some second)
    (q : VirtioVirtqueue) (i slots : Nat) (room : 2 ≤ slots) :
    (∃ output, fillIndirectTable q i call slots = .next output) ↔
      r.segments.length + w.segments.length ≤ slots := by
  have two : call.minDescsRequired = 2 := by
    simp [SubmitCall.minDescsRequired,readable,writable]
  have size := fragmented.writableLength second writable
  have other := segments_pos writable size
  have specified := generateReadable_spec q i slots call
  have half : (generateReadable q i call slots).result = .success ↔
      r.segments.length ≤ slots - 1 := by
    unfold generateReadable
    rw [readable]
    dsimp only
    rw [generateIndirectSegmentDma_success_iff _ _ _ _ _ _ (by omega),fragmented.readable,two]
    exact r.covers_iff (fragmented.readableLength first readable)
  unfold fillIndirectTable
  dsimp only
  by_cases fits : r.segments.length ≤ slots - 1
  · have success := half.mpr fits
    rw [if_neg (not_not.mpr success)]
    have max := specified.max success
    have min := specified.min
    rw [fragmented.readable_length readable writable slots fits] at max
    rw [writable] at min
    have rest : (generateWritable call (generateReadable q i call slots)).result = .success ↔
        w.segments.length ≤ slots - r.segments.length := by
      unfold generateWritable
      rw [writable]
      dsimp only
      rw [generateIndirectSegmentDma_success_iff _ _ _ _ _ _ (by omega),fragmented.writable,
        max,min]
      exact w.covers_iff size
    by_cases fits' : w.segments.length ≤ slots - r.segments.length
    · rw [if_neg (not_not.mpr (rest.mpr fits'))]
      exact iff_of_true ⟨_,rfl⟩ (by omega)
    · rw [if_pos fun good => fits' (rest.mp good)]
      exact iff_of_false (Phase.returned_not_next _ _) (by omega)
  · rw [if_pos fun good => fits (half.mp good)]
    exact iff_of_false (Phase.returned_not_next _ _) (by omega)

/-- The table of a request is mapped as one range, unless it is empty. -/
structure TableMapped (call : SubmitCall) (t : ScatterList) (count : Nat) : Prop where
  table : call.table = t.dma
  contiguous : t.segments.length ≤ 1
  length : byteCount t.segments = count * sizeofTableEntry

theorem TableMapped.describe_next_iff (mapped : TableMapped call t output.nextDescriptorIndex)
    (i : Nat) :
    (∃ value, describeIndirectTable output i call = .next value) ↔
      output.nextDescriptorIndex ≠ 0 := by
  have emitted : call.table.genIOVMSegments.emit 1 =
      ⟨t.segments,.success,output.nextDescriptorIndex * sizeofTableEntry⟩ := by
    rw [mapped.table,← mapped.length]
    simp [ScatterList.dma,ScatterList.genIOVMSegments,List.take_of_length_le mapped.contiguous]
  have empty : t.segments = [] ↔ output.nextDescriptorIndex = 0 := by
    have length := mapped.length
    cases shape : t.segments with
    | nil =>
      rw [shape] at length
      simp only [byteCount,List.map_nil,List.sum_nil,sizeofTableEntry] at length
      exact iff_of_true rfl (by omega)
    | cons s rest =>
      have first := t.positive s (by simp [shape])
      rw [shape] at length
      simp only [byteCount,List.map_cons,List.sum_cons,sizeofTableEntry] at length
      exact iff_of_false (List.cons_ne_nil s rest) (by omega)
  unfold describeIndirectTable
  dsimp only
  rw [if_neg (by rw [mapped.table]; exact fun failed => failed rfl),emitted]
  dsimp only
  by_cases zero : output.nextDescriptorIndex = 0
  · rw [if_pos (.inr (.inl (by simp [empty.mpr zero])))]
    exact iff_of_false (Phase.returned_not_next _ _) (not_not.mpr zero)
  · rw [if_neg (by simpa using mt empty.mp zero)]
    exact iff_of_true ⟨_,rfl⟩ zero

end

def Accepted (q : VirtioVirtqueue) (call : SubmitCall) : Prop :=
  ∃ ret, submitBuffers q call = some ret ∧ ret.result = .success ∧
    ret.queue.availableRing.headIndex = (q.availableRing.headIndex + 1) % 65536

theorem accepted_iff_next (unused : Unused q free) (fits : free.length ≤ q.numEntries)
    (sound : ¬Corrupting q call) : Accepted q call ↔ ∃ value, buildChain q call = .next value := by
  have outcome := buildChain_spec unused fits sound
  constructor
  · rintro ⟨ret,submitted,_,published⟩
    rcases submitBuffers_cases submitted with ⟨head,q',built,_⟩ | left
    · exact ⟨_,built⟩
    · rw [left] at outcome
      obtain ⟨_,_,_,_,agree,_⟩ := outcome
      rw [agree.availableRing] at published
      omega
  · rintro ⟨⟨head,q'⟩,built⟩
    rw [built] at outcome
    obtain ⟨_,_,_,_,_,_,_,agree⟩ := outcome
    refine ⟨_,by rw [submitBuffers,built],rfl,?_⟩
    show (q'.availableRing.headIndex + 1) % 65536 = _
    rw [agree.availableRing]

/-- A read or write whose data is in `segments` places. The header and the status byte are
in one place each, before and behind the data; one of the two buffers has the data. -/
structure Transfer (call : SubmitCall) (segments : Nat) (r w t : ScatterList) : Prop where
  fragmented : Fragmented call r w
  places : r.segments.length = 1 ∧ w.segments.length = segments + 1 ∨
    r.segments.length = segments + 1 ∧ w.segments.length = 1
  table : TableMapped call t ((segments + 2) % 65536)

section

variable {r w t : ScatterList}

theorem Transfer.count (transfer : Transfer call segments r w t) :
    r.segments.length + w.segments.length = segments + 2 := by
  rcases transfer.places with ⟨one,rest⟩ | ⟨rest,one⟩
  · omega
  · omega

theorem Transfer.buffers (transfer : Transfer call segments r w t) :
    ∃ first second, call.readableBuffer = some first ∧ call.writableBuffer = some second := by
  have places := transfer.places
  cases readable : call.readableBuffer with
  | none =>
    rw [transfer.fragmented.readableAbsent readable,List.length_nil] at places
    omega
  | some first =>
    cases writable : call.writableBuffer with
    | none =>
      rw [transfer.fragmented.writableAbsent writable,List.length_nil] at places
      omega
    | some second => exact ⟨first,second,rfl,rfl⟩

theorem Transfer.required (transfer : Transfer call segments r w t) :
    call.minDescsRequired = 2 := by
  obtain ⟨first,second,readable,writable⟩ := transfer.buffers
  simp [SubmitCall.minDescsRequired,readable,writable]

/-- A direct queue whose descriptors are all unused takes a request that has as many segments
as there are descriptors. -/
theorem Transfer.direct (transfer : Transfer call segments r w t) (unused : Unused q free)
    (fits : free.length ≤ q.numEntries) (direct : q.indirectDescriptors = false)
    (room : segments + 2 ≤ free.length) : Accepted q call := by
  have count := transfer.count
  have required := transfer.required
  have enough : call.minDescsRequired ≤ q.numUnusedDescriptors := by
    rw [unused.count]
    omega
  have sound : ¬Corrupting q call := fun corrupting =>
    transfer.fragmented.linked enough corrupting.2
  rw [accepted_iff_next unused fits sound]
  have outcome := buildChain_spec unused fits sound
  have ends := transfer.fragmented.ends unused fits (by omega) enough
  have mode : buildChain q call = buildDirectChain q call := by simp [buildChain,direct]
  rw [count,unused.count] at ends
  rw [mode] at outcome ⊢
  revert outcome ends
  cases buildDirectChain q call with
  | stuck => exact fun outcome => outcome.elim
  | next value => exact fun _ _ => ⟨value,rfl⟩
  | returned result q' =>
    rintro _ ⟨short,_⟩
    exact absurd room (of_decide_eq_false short)

/-- An indirect queue with an unused descriptor takes a request that fits the table, unless the
16-bit count of its entries comes out as zero. -/
theorem Transfer.indirect_iff (transfer : Transfer call segments r w t)
    (unused : Unused q (i :: rest)) (fits : (i :: rest).length ≤ q.numEntries)
    (indirect : q.indirectDescriptors = true) :
    Accepted q call ↔ segments + 2 ≤ tableSlots q i ∧ (segments + 2) % 65536 ≠ 0 := by
  have mode : buildChain q call = buildIndirectChain q call := by simp [buildChain,indirect]
  have sound : ¬Corrupting q call := by
    rintro ⟨direct,_⟩
    simp [indirect] at direct
  obtain ⟨first,second,readable,writable⟩ := transfer.buffers
  have count := transfer.count
  rw [accepted_iff_next unused fits sound,mode,buildIndirectChain_eq unused,transfer.required]
  by_cases few : 2 > tableSlots q i
  · rw [if_pos few]
    exact iff_of_false (Phase.returned_not_next _ _) (by omega)
  rw [if_neg few,if_neg (by decide)]
  have marked := quiet_modifyBuffer (tableReserved q i) i
    (fun buffer => { buffer with dmaCmdUsed := true }) fun _ => rfl
  have filled := fillIndirectTable_spec (unused.tableReserved.quiet marked)
    (List.nodup_cons.mp unused.nodup).1 (unused.small i List.mem_cons_self) call (tableSlots q i)
  have whole := transfer.fragmented.fill_next_iff readable writable
    ((tableReserved q i).modifyBuffer i fun buffer => { buffer with dmaCmdUsed := true }) i
    (tableSlots q i) (by omega)
  rw [count] at whole
  revert filled whole
  cases fillIndirectTable _ i call (tableSlots q i) with
  | stuck => exact fun filled => filled.elim
  | returned result q' =>
    intro _ whole
    refine iff_of_false (Phase.returned_not_next _ _) fun good => ?_
    obtain ⟨_,next⟩ := whole.mpr good.1
    cases next
  | next output =>
    rintro ⟨_,index,_⟩ whole
    have room := whole.mp ⟨output,rfl⟩
    rw [transfer.fragmented.count_eq readable writable (by omega),count] at index
    have table := transfer.table
    rw [← index] at table
    rw [Phase.bind_next,table.describe_next_iff i,index]
    exact ⟨fun nonzero => ⟨room,nonzero⟩,fun good => good.2⟩

end

namespace VirtioBlockDevice

/-- What `start` takes for the number of data segments: the field of the configuration if the
device has it, and else room for header and status in 512. -/
def segMax (activeFeatures : BitVec 32) (configSegMax : Nat) : Nat :=
  if activeFeatures.getLsbD 2 then configSegMax else 510

def indirectDescPerRequest (segMax : Nat) : Nat := (segMax + 2) % 2 ^ 32

structure Limits where
  maxRequestSegments : Nat
  maxConcurrentRequests : Nat
  deriving DecidableEq, Repr

/-- `queue_size - 2` -/
def queueRoom (queueSize : Nat) : Nat := (queueSize + 2 ^ 32 - 2) % 2 ^ 32

def limits (activeFeatures : BitVec 32) (segMax queueSize : Nat) : Limits :=
  if activeFeatures.getLsbD 28 = false then
    ⟨if segMax > queueRoom queueSize then queueRoom queueSize else segMax, queueSize / 3⟩
  else ⟨segMax, queueSize⟩

end VirtioBlockDevice

open VirtioBlockDevice

def VirtioVirtqueue.capacities (q : VirtioVirtqueue) (i : Nat) : Nat :=
  (q.descriptorBuffers i).indirectDescriptors.capacity

structure IdleQueue (n : Nat) (built q : VirtioVirtqueue) : Prop where
  unused : ∃ free, Partition n q free [] []
  mode : q.indirectDescriptors = built.indirectDescriptors
  capacity : built.indirectDescriptors = true → q.capacities = built.capacities

/-- The sum and the difference in the derivation are those of the natural numbers and of the
integers. -/
structure Unwrapped (activeFeatures : BitVec 32) (segMax queueSize : Nat) : Prop where
  table : indirectDescPerRequest segMax = segMax + 2
  room : activeFeatures.getLsbD 28 = false → (queueRoom queueSize : Int) = queueSize - 2

/-- `start` has derived its limits without wrapping around and takes the queue for what it is,
and every request within the limits is accepted while no other is in flight. -/
structure LimitsHonoured (activeFeatures : BitVec 32) (segMax n : Nat) (built : VirtioVirtqueue) :
    Prop where
  accepted : ∀ q call segments r w t, IdleQueue n built q → Transfer call segments r w t →
    segments ≤ (limits activeFeatures segMax n).maxRequestSegments → Accepted q call
  unwrapped : Unwrapped activeFeatures segMax n
  mode : activeFeatures.getLsbD 28 = built.indirectDescriptors

/-- A queue that fits the limits. In an indirect one the entries of a table are counted in 16
bits, and in a direct one the smallest queue has no room for header and status. -/
def LimitsFit (activeFeatures : BitVec 32) (segMax n : Nat) : Prop :=
  if activeFeatures.getLsbD 28 then segMax < 65534 else segMax < 2 ^ 32 - 2 ∧ 2 ≤ n

instance (activeFeatures : BitVec 32) (segMax n : Nat) :
    Decidable (LimitsFit activeFeatures segMax n) :=
  inferInstanceAs (Decidable (if activeFeatures.getLsbD 28 then segMax < 65534 else _ ∧ _))

theorem ringIndirectDesc_eq (features : BitVec 32) :
    (features.toNat &&& ringIndirectDesc != 0) = features.getLsbD 28 := by
  rw [ringIndirectDesc,Nat.and_two_pow,BitVec.getLsbD]
  cases features.toNat.testBit 28 <;> decide

theorem IdleQueue.free (idle : IdleQueue n built q) :
    ∃ free, Unused q free ∧ free.length = n ∧ q.numEntries = n := by
  obtain ⟨free,partition⟩ := idle.unused
  refine ⟨free,partition.unused,?_,partition.size⟩
  simpa using partition.places.length_eq

theorem idle_initial (accepted : AcceptedSize n) (interrupts indirect : Bool) (calls : SetupCalls) :
    IdleQueue n (initialQueue n interrupts indirect calls)
      (initialQueue n interrupts indirect calls) :=
  ⟨⟨_,partition_initial accepted interrupts indirect calls⟩,rfl,fun _ => rfl⟩

def SameTables (q q' : VirtioVirtqueue) : Prop := q'.capacities = q.capacities

theorem SameTables.trans (one : SameTables q q') (two : SameTables q' q'') : SameTables q q'' :=
  Eq.trans two one

theorem TablesKept.same (kept : TablesKept i slots q q') : SameTables q q' :=
  funext kept.capacity

theorem sameTables_modifyBuffer (q : VirtioVirtqueue) (i : Nat) (f)
    (kept : ∀ b, (f b).indirectDescriptors = b.indirectDescriptors) :
    SameTables q (q.modifyBuffer i f) :=
  (tablesKept_modifyBuffer q i 0 f kept).same

theorem sameTables_clearCompleted (i : Nat) (q : VirtioVirtqueue) :
    SameTables q (clearCompleted i q) := by
  have first := sameTables_modifyBuffer q i
    (fun buffer => { buffer with dmaCmd := none, dmaCmdUsed := false }) fun _ => rfl
  unfold clearCompleted
  split
  · dsimp only
    split
    · exact first.trans (sameTables_modifyBuffer _ i
        (fun buffer => { buffer with dmaCmd2 := none, dmaIndirectDescriptors := false }) fun _ => rfl)
    · exact first
  · rfl

theorem MachineInv.sameTables (inv : MachineInv n lost m)
    (indirect : m.queue.indirectDescriptors = true) (taken : step a m = some m') :
    SameTables m.queue m'.queue := by
  by_cases submitting : ∃ call, a = .submit call
  · obtain ⟨call,rfl⟩ := submitting
    obtain ⟨free,partition⟩ := inv.partition
    have tables := buildIndirectChain_tables partition.unused call
    rw [← buildChain_indirect indirect] at tables
    obtain ⟨_,⟨head,queue,built,rfl⟩ | ⟨result,queue,left,rfl⟩⟩ := Machine.submit_cases taken
    · rw [built] at tables
      cases tables with
      | next kept => exact kept.same
    · rw [left] at tables
      cases tables with
      | returned kept => exact kept.same
  by_cases advancing : a = .advance
  · subst a
    obtain ⟨_,call,result,_,moved,rfl⟩ := Machine.advance_cases taken
    rcases processCompletedRequests_cases moved with ⟨_,buffers,_⟩ | ⟨_,_,q',_,_,released,rfl⟩
    · funext i
      exact congrArg (fun b : Nat → VirtioBuffer => (b i).indirectDescriptors.capacity) buffers
    · refine releaseChain_keeps (SameTables m.queue) (fun i q same => ?_) released rfl
      exact same.trans ((sameTables_clearCompleted i q).trans (tablesKept_returnUnused _ i 0).same)
  · funext i
    exact congrArg (fun b : Nat → VirtioBuffer => (b i).indirectDescriptors.capacity)
      (inv.untouched taken (not_exists.mp submitting) advancing).buffers

theorem Gentle.mode (gentle : Gentle m a) (inv : MachineInv n lost m)
    (taken : step a m = some m') :
    m'.queue.indirectDescriptors = m.queue.indirectDescriptors := by
  by_cases refused : ∃ call, a = .submit call ∧ RefusedEarly m.queue call
  · obtain ⟨call,rfl,refused⟩ := refused
    rw [Machine.submit_refused refused taken]
  · refine inv.mode (fun call same => ?_) taken
    have succeeds := (gentle call same).resolve_right fun early => refused ⟨call,same,early⟩
    exact succeeds.not_corrupting

/-- Between requests, a queue is idle as it was in the beginning. -/
theorem idle_of_run (accepted : AcceptedSize n) (interrupts indirect : Bool) (calls : SetupCalls)
    (run : Runs.Run step Gentle (Machine.start (initialQueue n interrupts indirect calls)) actions m)
    (none : m.inflight = []) : IdleQueue n (initialQueue n interrupts indirect calls) m.queue := by
  have kept := run.keeps (fun m => MachineInv n [] m ∧ m.queue.indirectDescriptors = indirect ∧
      (indirect = true → SameTables (initialQueue n interrupts indirect calls) m.queue))
    (fun {m a m'} gentle taken ⟨inv,mode,tables⟩ => by
      obtain ⟨more,inv',nothing⟩ := inv.keeps taken (.inr gentle)
      rw [nothing gentle] at inv'
      refine ⟨inv',(gentle.mode inv taken).trans mode,fun uses => ?_⟩
      exact (tables uses).trans (inv.sameTables (mode.trans uses) taken))
    ⟨machineInv_start accepted interrupts indirect calls,rfl,fun _ => rfl⟩
  obtain ⟨inv,mode,tables⟩ := kept
  obtain ⟨free,partition⟩ := inv.partition
  rw [none] at partition
  exact ⟨⟨free,partition⟩,mode,tables⟩

def sectors (count : Nat) : ScatterList :=
  ⟨List.replicate count ⟨4096, 512⟩, fun s member => by rw [List.eq_of_mem_replicate member]; decide⟩

theorem byteCount_sectors (count : Nat) : byteCount (sectors count).segments = 512 * count := by
  simp [byteCount,sectors,Nat.mul_comm]

def tableRange (count : Nat) : ScatterList :=
  ⟨if count = 0 then [] else [⟨8192, count * sizeofTableEntry⟩], by
    intro s member
    split at member
    · cases member
    · rw [List.mem_singleton.mp member]
      exact Nat.mul_pos (by omega) (by decide)⟩

def readSectors (segments : Nat) : SubmitCall :=
  ⟨some ⟨1, 512⟩, some ⟨2, 512 * (segments + 1)⟩, ⟨1, 2, 3⟩, (sectors 1).dma,
    (sectors (segments + 1)).dma, (tableRange ((segments + 2) % 65536)).dma⟩

theorem transfer_readSectors (segments : Nat) :
    Transfer (readSectors segments) segments (sectors 1) (sectors (segments + 1))
      (tableRange ((segments + 2) % 65536)) := by
  have described : describedBuffer (some (⟨2, 512 * (segments + 1)⟩ : IOMemoryDescriptor)) =
      some ⟨2, 512 * (segments + 1)⟩ := Option.filter_eq_some_iff.mpr ⟨rfl,by simp⟩
  refine ⟨⟨rfl,rfl,?_,?_,?_,?_⟩,.inl ⟨rfl,by simp [sectors]⟩,rfl,?_,?_⟩
  · intro buf same
    rw [← Option.some.inj (same : some (⟨1, 512⟩ : IOMemoryDescriptor) = some buf),
      byteCount_sectors]
  · intro buf same
    rw [← Option.some.inj (described.symm.trans same),byteCount_sectors]
  · intro absent
    cases absent
  · intro absent
    cases described.symm.trans absent
  · unfold tableRange
    dsimp only
    split
    · exact Nat.zero_le 1
    · exact le_rfl
  · unfold tableRange
    dsimp only
    split
    · rename_i zero
      rw [zero]
      rfl
    · exact Nat.add_zero _

section

variable {activeFeatures : BitVec 32} {segMax n : Nat} {calls : SetupCalls}

/-- With tables of the size that was asked for, only the 16-bit count can be in the way. -/
theorem accepted_indirect_iff (accepted : AcceptedSize n)
    (capacity : ∀ i, (segMax + 2) * sizeofTableEntry ≤ calls.tableCapacity i ∧
      calls.tableCapacity i / sizeofTableEntry < 2 ^ 32)
    (idle : IdleQueue n (initialQueue n true true calls) q)
    (transfer : Transfer call segments r w t) (within : segments ≤ segMax) :
    Accepted q call ↔ (segments + 2) % 65536 ≠ 0 := by
  obtain ⟨free,unused,length,size⟩ := idle.free
  have positive := accepted.pos
  obtain ⟨i,rest,rfl⟩ : ∃ i rest, free = i :: rest :=
    List.exists_cons_of_length_pos (by omega)
  have slots : segMax + 2 ≤ tableSlots q i := by
    have entries := (Nat.le_div_iff_mul_le (by decide)).mpr (capacity i).1
    rw [tableSlots,show (q.descriptorBuffers i).indirectDescriptors.capacity =
      calls.tableCapacity i from congrFun (idle.capacity rfl) i]
    rw [Nat.mod_eq_of_lt (capacity i).2]
    exact entries
  rw [transfer.indirect_iff unused (by omega) idle.mode]
  exact ⟨fun good => good.2,fun nonzero => ⟨by omega,nonzero⟩⟩

/-- With tables of enough entries, all requests within an indirect limit are accepted
exactly if the number of entries stays below what 16 bits can count. -/
theorem limits_indirect_iff (accepted : AcceptedSize n)
    (active : activeFeatures.getLsbD 28 = true) (small : segMax + 2 < 2 ^ 32)
    (capacity : ∀ i, (segMax + 2) * sizeofTableEntry ≤ calls.tableCapacity i ∧
      calls.tableCapacity i / sizeofTableEntry < 2 ^ 32) :
    (∀ q call segments r w t, IdleQueue n (initialQueue n true true calls) q →
      Transfer call segments r w t →
      segments ≤ (limits activeFeatures segMax n).maxRequestSegments → Accepted q call) ↔
    segMax < 65534 := by
  have limit : (limits activeFeatures segMax n).maxRequestSegments = segMax := by
    rw [limits,if_neg (by rw [active]; decide)]
  rw [limit]
  constructor
  · intro honoured
    by_contra large
    have request := transfer_readSectors 65534
    have idle := idle_initial accepted true true calls
    exact (accepted_indirect_iff accepted capacity idle request (by omega)).mp
      (honoured _ _ _ _ _ _ idle request (by omega)) (by decide)
  · intro counted q call segments r w t idle transfer within
    exact (accepted_indirect_iff accepted capacity idle transfer within).mpr (by omega)

theorem limits_direct (inactive : activeFeatures.getLsbD 28 = false) (room : 2 ≤ n)
    (size : n < 2 ^ 32) (idle : IdleQueue n (initialQueue n true false calls) q)
    (transfer : Transfer call segments r w t)
    (within : segments ≤ (limits activeFeatures segMax n).maxRequestSegments) :
    Accepted q call := by
  obtain ⟨free,unused,length,entries⟩ := idle.free
  refine transfer.direct unused (by omega) idle.mode ?_
  have exact : queueRoom n = n - 2 := by
    unfold queueRoom
    omega
  rw [limits,if_pos inactive,exact] at within
  dsimp only at within
  split at within
  · omega
  · omega

end

/-- The limits of the block device are honoured exactly if the number of segments stays below
the 16 bits that count the entries of a table, or, in a queue without tables, the size of
the queue allows for more than one descriptor and the number can be raised by two. -/
theorem limits_honoured_iff (n : Nat) (activeFeatures : BitVec 32) (configSegMax : Nat)
    (calls : SetupCalls) (queue : VirtioVirtqueue) (size : n < 65536)
    (reported : configSegMax < 2 ^ 32)
    (built : setupVirtqueue n activeFeatures.toNat true
      (indirectDescPerRequest (segMax activeFeatures configSegMax)) calls = .ok queue)
    (capacity : ∀ i, indirectDescPerRequest (segMax activeFeatures configSegMax) *
      sizeofTableEntry ≤ calls.tableCapacity i ∧
        calls.tableCapacity i / sizeofTableEntry < 2 ^ 32) :
    LimitsHonoured activeFeatures (segMax activeFeatures configSegMax) n queue ↔
      LimitsFit activeFeatures (segMax activeFeatures configSegMax) n := by
  obtain ⟨accepted,rfl⟩ := setupVirtqueue_built size built
  have bound : segMax activeFeatures configSegMax < 2 ^ 32 := by
    unfold segMax
    split
    · exact reported
    · decide
  generalize segMax activeFeatures configSegMax = segMax at *
  have unwrapped : indirectDescPerRequest segMax = segMax + 2 ↔ segMax + 2 < 2 ^ 32 := by
    unfold indirectDescPerRequest
    omega
  rw [ringIndirectDesc_eq] at *
  cases active : activeFeatures.getLsbD 28 with
  | true =>
    rw [LimitsFit,if_pos active]
    constructor
    · intro honoured
      have table := honoured.unwrapped.table
      have all := honoured.accepted
      rw [table] at capacity all
      exact (limits_indirect_iff accepted active (unwrapped.mp table) capacity).mp all
    · intro counted
      have table := unwrapped.mpr (by omega)
      rw [table] at capacity ⊢
      refine ⟨(limits_indirect_iff accepted active (by omega) capacity).mpr counted,
        ⟨table,fun inactive => ?_⟩,active⟩
      rw [active] at inactive
      cases inactive
  | false =>
    rw [LimitsFit,if_neg (by rw [active]; decide)]
    constructor
    · intro honoured
      have room := honoured.unwrapped.room active
      have table := unwrapped.mp honoured.unwrapped.table
      exact ⟨by omega,by omega⟩
    · rintro ⟨small,room⟩
      refine ⟨fun q call segments r w t => limits_direct active room (by omega),
        ⟨unwrapped.mpr (by omega),fun _ => ?_⟩,active⟩
      unfold queueRoom
      omega

theorem limits_honoured_iff_126 :
    LimitsHonoured (BitVec.ofNat 32 (2 ^ 2 + 2 ^ 28)) 126 128
      (initialQueue 128 true true (readyCalls 128 2048)) := by
  have taken : segMax (BitVec.ofNat 32 (2 ^ 2 + 2 ^ 28)) 126 = 126 := by decide
  have honoured := limits_honoured_iff 128 (BitVec.ofNat 32 (2 ^ 2 + 2 ^ 28)) 126
    (readyCalls 128 2048) (initialQueue 128 true true (readyCalls 128 2048)) (by decide) (by decide)
  rw [taken] at honoured
  exact (honoured rfl fun _ => ⟨Nat.le_refl 2048,show 2048 / 16 < 2 ^ 32 by decide⟩).mpr (by decide)

/-- A device without indirect descriptors and with a queue of one entry: 510 segments are
advertised, because the difference wraps around, and a request with one is not accepted. -/
theorem limits_not_honoured :
    setupVirtqueue 1 0 true 512 (readyCalls 1 0) =
      .ok (initialQueue 1 true false (readyCalls 1 0)) ∧
    (limits 0 510 1).maxRequestSegments = 510 ∧
    (submitBuffers (initialQueue 1 true false (readyCalls 1 0)) (readSectors 1)).map
      SubmitReturn.result = some .unsupported ∧
    ¬LimitsHonoured 0 510 1 (initialQueue 1 true false (readyCalls 1 0)) := by
  refine ⟨rfl,by decide,by decide +kernel,fun honoured => ?_⟩
  have room := honoured.unwrapped.room rfl
  exact absurd room (by decide)

end VirtioOsx
