import Mathlib.Tactic.IntervalCases
import VirtioOsx.Virtqueue

/-! `setupVirtqueue`: which queue sizes it accepts, how many bytes it allocates,
where it places the three rings inside them, and the queue it leaves behind. Sizes
and pointers are separate computations in the source and are kept separate here. -/
namespace VirtioOsx

/-- `num` is the 16-bit `QUEUE_SIZE` register, already known not to be 0. -/
def isPow2 (num : Nat) : Bool := num &&& (num - 1) == 0

/-- The sizes that pass both checks of `setupVirtqueue`. -/
def AcceptedSize (n : Nat) : Prop := n < 65536 ∧ n ≠ 0 ∧ isPow2 n = true

instance (n : Nat) : Decidable (AcceptedSize n) := inferInstanceAs (Decidable (_ ∧ _))

theorem acceptedSize_iff : AcceptedSize n ↔ ∃ k, k ≤ 15 ∧ n = 2^k := by
  constructor
  · rintro ⟨small,nonzero,power⟩
    have power : n &&& (n - 1) = 0 := by simpa [isPow2] using power
    obtain ⟨k,rfl⟩ := (Nat.and_sub_one_eq_zero_iff_isPowerOfTwo nonzero).mp power
    exact ⟨k,Nat.le_of_lt_succ ((Nat.pow_lt_pow_iff_right (by decide)).mp (small : _ < 2^16)),rfl⟩
  · rintro ⟨k,bound,rfl⟩
    interval_cases k <;> decide

theorem AcceptedSize.le (accepted : AcceptedSize n) : n ≤ 32768 := by
  obtain ⟨k,bound,rfl⟩ := acceptedSize_iff.mp accepted
  exact Nat.pow_le_pow_right (by decide) bound

theorem AcceptedSize.pos (accepted : AcceptedSize n) : 0 < n := Nat.pos_of_ne_zero accepted.2.1

/-- Slots chosen by a 16-bit index agree with those of the full counter. -/
theorem AcceptedSize.dvd (accepted : AcceptedSize n) : n ∣ 65536 := by
  obtain ⟨k,bound,rfl⟩ := acceptedSize_iff.mp accepted
  exact Nat.pow_dvd_pow 2 (show k ≤ 16 by omega)

def virtioPageSize : Nat := 4096

/-- Computed in 64 bits and returned as `unsigned`. -/
def virtioPageAlign (size : Nat) : Nat :=
  ((size + virtioPageSize - 1) &&& (2^64 - 1 - (virtioPageSize - 1))) % 2^32

def sizeofVringDesc : Nat := 16
def sizeofVringAvail : Nat := 4
def sizeofVringUsed : Nat := 4
def sizeofVringUsedElement : Nat := 8
def sizeofUInt16 : Nat := 2

def vringMemSize (qsz : Nat) : Nat :=
  (virtioPageAlign ((sizeofVringDesc * qsz + sizeofUInt16 * (2 + qsz)) % 2^32) +
    virtioPageAlign ((sizeofVringUsedElement * qsz) % 2^32)) % 2^32

/-- Byte offsets of the rings from `queue_mem_bytes`. -/
structure VringPointers where
  descriptorTable : Nat
  availableRing : Nat
  usedRing : Nat
  deriving DecidableEq, Repr

/-- `eventIndexFeatureEnabled` is a member that no code of the driver ever sets. -/
def vringPointers (eventIndexFeatureEnabled : Bool) (numQueueEntries : Nat) : VringPointers :=
  let spaceUsed := 0
  let descriptorTable := spaceUsed
  let spaceUsed := (spaceUsed + sizeofVringDesc * numQueueEntries) % 2^32
  let availableRing := spaceUsed
  let spaceUsed := (spaceUsed + (sizeofVringAvail + sizeofUInt16 * numQueueEntries)) % 2^32
  let spaceUsed := if eventIndexFeatureEnabled then (spaceUsed + sizeofUInt16) % 2^32 else spaceUsed
  let spaceUsed := virtioPageAlign spaceUsed
  ⟨descriptorTable, availableRing, spaceUsed⟩

structure Region where
  start : Nat
  size : Nat

def Region.Contains (r : Region) (byte : Nat) : Prop := r.start ≤ byte ∧ byte < r.start + r.size

def descriptorTableRegion (n : Nat) : Region :=
  ⟨(vringPointers false n).descriptorTable, sizeofVringDesc * n⟩

def availableRingRegion (n : Nat) : Region :=
  ⟨(vringPointers false n).availableRing, sizeofVringAvail + sizeofUInt16 * n⟩

def usedRingRegion (n : Nat) : Region :=
  ⟨(vringPointers false n).usedRing, sizeofVringUsed + sizeofVringUsedElement * n⟩

def availableSlot (n k : Nat) : Region :=
  ⟨(vringPointers false n).availableRing + sizeofVringAvail + sizeofUInt16 * (k % n), sizeofUInt16⟩

def usedSlot (n k : Nat) : Region :=
  ⟨(vringPointers false n).usedRing + sizeofVringUsed + sizeofVringUsedElement * (k % n),
    sizeofVringUsedElement⟩

def Region.Disjoint (r s : Region) : Prop := ∀ byte, r.Contains byte → ¬s.Contains byte

def Region.Inside (r : Region) (size : Nat) : Prop := ∀ byte, r.Contains byte → byte < size

/-- The memory handed to the device through a page number in `QUEUE_ADDRESS`: the
three areas are apart, the used ring is page aligned, and neither side can leave the
allocation whatever 16-bit index it uses. -/
structure LayoutSafe (page n : Nat) : Prop where
  tableAvailable : (descriptorTableRegion n).Disjoint (availableRingRegion n)
  tableUsed : (descriptorTableRegion n).Disjoint (usedRingRegion n)
  availableUsed : (availableRingRegion n).Disjoint (usedRingRegion n)
  aligned : (page * virtioPageSize + (usedRingRegion n).start) % virtioPageSize = 0
  tableInside : (descriptorTableRegion n).Inside (vringMemSize n)
  availableInside : (availableRingRegion n).Inside (vringMemSize n)
  usedInside : (usedRingRegion n).Inside (vringMemSize n)
  availableSlots : ∀ k < 65536, (availableSlot n k).Inside (vringMemSize n)
  usedSlots : ∀ k < 65536, (usedSlot n k).Inside (vringMemSize n)

theorem Region.disjoint_of_le {r s : Region} (before : r.start + r.size ≤ s.start) :
    r.Disjoint s := by
  intro byte first second
  have := first.2
  have := second.1
  omega

theorem Region.inside_of_le {r : Region} (bound : r.start + r.size ≤ total) : r.Inside total := by
  intro byte member
  have := member.2
  omega

/-- The arithmetic of the layout, one closed computation for each accepted size. -/
theorem layout_arithmetic (accepted : AcceptedSize n) :
    (descriptorTableRegion n).start = 0 ∧
    (descriptorTableRegion n).size ≤ (availableRingRegion n).start ∧
    (availableRingRegion n).start + (availableRingRegion n).size ≤ (usedRingRegion n).start ∧
    (usedRingRegion n).start % virtioPageSize = 0 ∧
    (usedRingRegion n).start ≤ vringMemSize n ∧
    ((usedRingRegion n).start + (usedRingRegion n).size ≤ vringMemSize n ↔ n < 512) := by
  obtain ⟨k,bound,rfl⟩ := acceptedSize_iff.mp accepted
  interval_cases k <;> decide

theorem availableSlot_inside (positive : 0 < n) (k : Nat) :
    (availableSlot n k).start + (availableSlot n k).size ≤
      (availableRingRegion n).start + (availableRingRegion n).size := by
  have := Nat.mod_lt k positive
  simp only [availableSlot,availableRingRegion,sizeofVringAvail,sizeofUInt16]
  omega

theorem usedSlot_inside (positive : 0 < n) (k : Nat) :
    (usedSlot n k).start + (usedSlot n k).size ≤
      (usedRingRegion n).start + (usedRingRegion n).size := by
  have := Nat.mod_lt k positive
  simp only [usedSlot,usedRingRegion,sizeofVringUsed,sizeofVringUsedElement]
  omega

/-- `vring_mem_size` leaves out the four bytes of the used ring's `flags` and
`head_index`. Rounding hides this until the elements alone fill whole pages. -/
theorem layout_safe_iff (page n : Nat) (accepted : AcceptedSize n) :
    LayoutSafe page n ↔ n < 512 := by
  obtain ⟨start,table,available,aligned,usedStart,used⟩ := layout_arithmetic accepted
  constructor
  · intro safe
    apply used.mp
    have positive : 0 < (usedRingRegion n).size := by
      simp only [usedRingRegion,sizeofVringUsed,sizeofVringUsedElement]; omega
    have last := safe.usedInside ((usedRingRegion n).start + (usedRingRegion n).size - 1)
      ⟨by omega,by omega⟩
    omega
  · intro small
    have usedBound := used.mpr small
    have tableBefore : (descriptorTableRegion n).start + (descriptorTableRegion n).size ≤
        (availableRingRegion n).start := by omega
    refine ⟨Region.disjoint_of_le tableBefore,Region.disjoint_of_le (by omega),
      Region.disjoint_of_le available,?_,Region.inside_of_le (by omega),
      Region.inside_of_le (by omega),Region.inside_of_le usedBound,?_,?_⟩
    · rw [Nat.mul_add_mod_self_right]
      exact aligned
    · intro k _
      have := availableSlot_inside accepted.pos k
      exact Region.inside_of_le (by omega)
    · intro k _
      have := usedSlot_inside accepted.pos k
      exact Region.inside_of_le (by omega)

theorem layout_safe_iff_256 : AcceptedSize 256 ∧ LayoutSafe 1 256 :=
  ⟨by decide,(layout_safe_iff 1 256 (by decide)).mpr (by decide)⟩

/-- Element 511 of a queue of 512 entries ends four bytes after the allocation. -/
theorem layout_512_unsafe : AcceptedSize 512 ∧ ¬LayoutSafe 0 512 := by
  refine ⟨by decide,fun safe => ?_⟩
  have outside := safe.usedSlots 511 (by decide) (vringMemSize 512) ⟨by decide,by decide⟩
  exact absurd outside (by decide)

/-- Outcomes of the allocations and of the DMA mapping of the queue memory. The maps tell
for each descriptor which of its commands, and in an indirect queue whether its table,
could be allocated; `tableCapacity` is the capacity the table's buffer was given. -/
structure SetupCalls where
  queueMem : Bool
  dmaCmd : Bool
  setMemoryDescriptor : IOReturn
  genIOVMSegments : IOReturn
  offset : Nat
  numSegments : Nat
  segmentLength : Nat
  bufferDma : Nat → Bool
  dmaCmd2 : Nat → Bool
  dmaIndirectDescriptors : Nat → Bool
  indirectDescriptors : Nat → Bool
  tableCapacity : Nat → Nat

def ringIndirectDesc : Nat := 2^28

def initialBuffer (numQueueEntries : Nat) (calls : SetupCalls) (i : Nat) : VirtioBuffer where
  dmaCmd := none
  completion := ⟨0, 0, 0⟩
  nextDesc := if i = numQueueEntries - 1 then -1 else int16 (i + 1)
  dmaCmdUsed := false
  indirectDescriptors := ⟨calls.tableCapacity i, calls.tableCapacity i, fun _ => ⟨0, 0, 0, 0⟩⟩
  dmaIndirectDescriptors := false
  dmaCmd2 := none

/-- The queue of the successful path: zeroed memory, and every descriptor on the
unused list in index order. -/
def initialQueue (numQueueEntries : Nat) (interruptsEnabled useIndirect : Bool)
    (calls : SetupCalls) : VirtioVirtqueue where
  numEntries := numQueueEntries
  descriptorTable := fun _ => ⟨0, 0, 0, 0⟩
  availableRing := ⟨if interruptsEnabled then 0 else VirtioVringAvailFlag.noInterrupt, 0, fun _ => 0⟩
  usedRing := ⟨0, 0, fun _ => ⟨0, 0⟩⟩
  usedRingLastHeadIndex := 0
  descriptorBuffers := initialBuffer numQueueEntries calls
  interruptsRequested := interruptsEnabled
  indirectDescriptors := useIndirect
  firstUnusedDescriptorIndex := 0
  numUnusedDescriptors := numQueueEntries

def descriptorAllocated (useIndirect : Bool) (calls : SetupCalls) (i : Nat) : Bool :=
  if useIndirect then
    calls.bufferDma i && calls.dmaCmd2 i && calls.dmaIndirectDescriptors i &&
      calls.indirectDescriptors i
  else calls.bufferDma i

def setupVirtqueue (numQueueEntries activeFeatures : Nat) (interruptsEnabled : Bool)
    (indirectDescPerRequest : Nat) (calls : SetupCalls) : Except IOReturn VirtioVirtqueue :=
  if numQueueEntries = 0 then .error .badArgument
  else if isPow2 numQueueEntries = false then .error .deviceError
  else if calls.queueMem = false then .error .noMemory
  else if calls.dmaCmd = false then .error .noMemory
  else if calls.setMemoryDescriptor ≠ .success then .error calls.setMemoryDescriptor
  else if calls.genIOVMSegments ≠ .success then .error calls.genIOVMSegments
  else if calls.offset ≠ vringMemSize numQueueEntries ∨ calls.numSegments ≠ 1 ∨
      calls.segmentLength ≠ vringMemSize numQueueEntries then .error .internalError
  else
    let useIndirect := activeFeatures &&& ringIndirectDesc != 0 && indirectDescPerRequest > 0
    if (List.range numQueueEntries).all (descriptorAllocated useIndirect calls) = false then
      .error .noMemory
    else .ok (initialQueue numQueueEntries interruptsEnabled useIndirect calls)

theorem of_guard_ok {failed : Prop} [Decidable failed] {code : IOReturn} {rest : Except IOReturn α}
    (ok : (if failed then .error code else rest) = .ok value) : ¬failed ∧ rest = .ok value := by
  by_cases fails : failed
  · rw [if_pos fails] at ok
    cases ok
  · rw [if_neg fails] at ok
    exact ⟨fails,ok⟩

theorem of_guard_error {failed : Prop} [Decidable failed] {code : IOReturn}
    {rest : Except IOReturn α} (error : (if failed then .error code else rest) = .error result) :
    failed ∧ code = result ∨ rest = .error result := by
  by_cases fails : failed
  · rw [if_pos fails] at error
    exact .inl ⟨fails,Except.error.inj error⟩
  · rw [if_neg fails] at error
    exact .inr error

/-- A queue that `setupVirtqueue` hands to the driver has an accepted size and is indirect
if the feature is active and there is a table to allocate. -/
theorem setupVirtqueue_built (size : numQueueEntries < 65536)
    (built : setupVirtqueue numQueueEntries activeFeatures interruptsEnabled indirectDescPerRequest
      calls = .ok queue) :
    AcceptedSize numQueueEntries ∧ queue = initialQueue numQueueEntries interruptsEnabled
      (activeFeatures &&& ringIndirectDesc != 0 && indirectDescPerRequest > 0) calls := by
  unfold setupVirtqueue at built
  obtain ⟨zero,built⟩ := of_guard_ok built
  obtain ⟨power,built⟩ := of_guard_ok built
  -- the remaining tests are about the allocations and the mapping
  obtain ⟨_,built⟩ := of_guard_ok built
  obtain ⟨_,built⟩ := of_guard_ok built
  obtain ⟨_,built⟩ := of_guard_ok built
  obtain ⟨_,built⟩ := of_guard_ok built
  obtain ⟨_,built⟩ := of_guard_ok built
  obtain ⟨_,built⟩ := of_guard_ok built
  exact ⟨⟨size,zero,Bool.eq_true_of_not_eq_false power⟩,(Except.ok.inj built).symm⟩

theorem setupVirtqueue_ok (size : numQueueEntries < 65536)
    (built : setupVirtqueue numQueueEntries activeFeatures interruptsEnabled indirectDescPerRequest
      calls = .ok queue) :
    AcceptedSize numQueueEntries ∧ ∃ useIndirect,
      queue = initialQueue numQueueEntries interruptsEnabled useIndirect calls :=
  have ⟨accepted,same⟩ := setupVirtqueue_built size built
  ⟨accepted,_,same⟩

theorem setupVirtqueue_error
    (failed : setupVirtqueue numQueueEntries activeFeatures interruptsEnabled indirectDescPerRequest
      calls = .error result) : result ≠ .success := by
  unfold setupVirtqueue at failed
  rcases of_guard_error failed with ⟨_,rfl⟩ | failed
  · decide
  rcases of_guard_error failed with ⟨_,rfl⟩ | failed
  · decide
  rcases of_guard_error failed with ⟨_,rfl⟩ | failed
  · decide
  rcases of_guard_error failed with ⟨_,rfl⟩ | failed
  · decide
  -- two codes are those of the calls that failed
  rcases of_guard_error failed with ⟨unsuccessful,rfl⟩ | failed
  · exact unsuccessful
  rcases of_guard_error failed with ⟨unsuccessful,rfl⟩ | failed
  · exact unsuccessful
  rcases of_guard_error failed with ⟨_,rfl⟩ | failed
  · decide
  rcases of_guard_error failed with ⟨_,rfl⟩ | failed
  · decide
  · cases failed

end VirtioOsx
