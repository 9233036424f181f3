import Mathlib.Algebra.Order.Ring.Nat
import Mathlib.Logic.Function.Basic
import Mathlib.Data.List.Basic

/-! The virtqueue of `VirtioDevice.h` with its driver-private bookkeeping, and the
list of unused descriptors that `VirtioLegacyPCIDevice.cpp` threads through
`next_desc`. Arrays are maps from indices; machine integers are `Nat` and `Int`
with the source's conversions and wrap-around written out. -/
namespace VirtioOsx

inductive IOReturn where
  | success
  | badArgument
  | unsupported
  | busy
  | noMemory
  | internalError
  | deviceError
  | other (code : Nat)
  deriving DecidableEq, Repr

inductive IODirection where
  | none
  | input
  | output
  | inOut
  deriving DecidableEq, Repr

def pageSize : Nat := 4096

def uint16Max : Nat := 65535

def uint16 (i : Int) : Nat := (i % 65536).toNat

def int16 (i : Nat) : Int :=
  if i % 65536 < 32768 then (i % 65536 : Nat) else (i % 65536 : Nat) - 65536

theorem uint16_cast (i : Nat) (small : i < 65536) : uint16 i = i := by
  simp only [uint16]
  omega

theorem int16_cast (i : Nat) (small : i < 32768) : int16 i = i := by
  have reduced : i % 65536 = i := by omega
  simp [int16,reduced,small]

/-- `action` stands for the function pointer; `target` and `ref` are its arguments. -/
structure VirtioCompletion where
  action : Nat
  target : Nat
  ref : Nat
  deriving DecidableEq, Repr, Inhabited

structure IOMemoryDescriptor where
  identity : Nat
  length : Nat
  deriving DecidableEq, Repr

structure VirtioVringDesc where
  physAddress : Nat
  lengthBytes : Nat
  flags : Nat
  next : Nat
  deriving DecidableEq, Repr, Inhabited

namespace VirtioVringDescFlag

def next : Nat := 1
def deviceWritable : Nat := 2
def indirect : Nat := 4

end VirtioVringDescFlag

structure VirtioVringAvail where
  flags : Nat
  headIndex : Nat
  ring : Nat → Nat

namespace VirtioVringAvailFlag

def noInterrupt : Nat := 1

end VirtioVringAvailFlag

structure VirtioVringUsedElement where
  descriptorId : Nat
  writtenBytes : Nat
  deriving DecidableEq, Repr, Inhabited

namespace VirtioVringUsedFlag

def noNotify : Nat := 1

end VirtioVringUsedFlag

structure VirtioVringUsed where
  flags : Nat
  headIndex : Nat
  ring : Nat → VirtioVringUsedElement

/-- The buffer that holds an indirect table: its capacity and length in bytes. -/
structure IndirectTable where
  capacity : Nat
  length : Nat
  entries : Nat → VirtioVringDesc
  deriving Inhabited

/-- A DMA command is represented by the memory descriptor attached to it. The last
three fields are used only by queues with indirect descriptors. -/
structure VirtioBuffer where
  dmaCmd : Option IOMemoryDescriptor
  completion : VirtioCompletion
  nextDesc : Int
  dmaCmdUsed : Bool
  indirectDescriptors : IndirectTable
  dmaIndirectDescriptors : Bool
  dmaCmd2 : Option IOMemoryDescriptor
  deriving Inhabited

structure VirtioVirtqueue where
  numEntries : Nat
  descriptorTable : Nat → VirtioVringDesc
  availableRing : VirtioVringAvail
  usedRing : VirtioVringUsed
  usedRingLastHeadIndex : Nat
  descriptorBuffers : Nat → VirtioBuffer
  interruptsRequested : Bool
  indirectDescriptors : Bool
  firstUnusedDescriptorIndex : Int
  numUnusedDescriptors : Nat

namespace VirtioVirtqueue

def nextDesc (q : VirtioVirtqueue) (i : Nat) : Int := (q.descriptorBuffers i).nextDesc

def completion (q : VirtioVirtqueue) (i : Nat) : VirtioCompletion :=
  (q.descriptorBuffers i).completion

def modifyBuffer (q : VirtioVirtqueue) (i : Nat) (f : VirtioBuffer → VirtioBuffer) :
    VirtioVirtqueue :=
  { q with descriptorBuffers := Function.update q.descriptorBuffers i (f (q.descriptorBuffers i)) }

end VirtioVirtqueue

/-- A `num_unused_descriptors` that is 0 would wrap to the largest `unsigned`. -/
def reserveNewDescriptor (virtqueue : VirtioVirtqueue) : Int × VirtioVirtqueue :=
  let descriptorIndex := virtqueue.firstUnusedDescriptorIndex
  if descriptorIndex < 0 then (-1, virtqueue)
  else (descriptorIndex,
    { virtqueue with
      firstUnusedDescriptorIndex := virtqueue.nextDesc descriptorIndex.toNat
      numUnusedDescriptors := (virtqueue.numUnusedDescriptors + (2^32 - 1)) % 2^32 })

def returnUnusedDescriptor (virtqueue : VirtioVirtqueue) (descriptorIndex : Nat) : VirtioVirtqueue :=
  let virtqueue := { virtqueue with
    numUnusedDescriptors := (virtqueue.numUnusedDescriptors + 1) % 2^32 }
  let virtqueue := virtqueue.modifyBuffer descriptorIndex fun buffer =>
    { buffer with nextDesc := virtqueue.firstUnusedDescriptorIndex }
  { virtqueue with firstUnusedDescriptorIndex := int16 descriptorIndex }

/-- The loops of the source that hand a `next_desc` chain back to the unused list:
both rollbacks of a submission and the release of a completed request. `visit` is
what the loop does to a descriptor before returning it. The result is absent when
the chain has not ended after `fuel` descriptors. -/
def releaseChain (visit : Nat → VirtioVirtqueue → VirtioVirtqueue) :
    Nat → Int → VirtioVirtqueue → Option VirtioVirtqueue
  | fuel, descriptorIndex, queue =>
    if descriptorIndex < 0 then some queue
    else match fuel with
      | 0 => none
      | fuel + 1 =>
        let i := descriptorIndex.toNat
        releaseChain visit fuel (queue.nextDesc i) (returnUnusedDescriptor (visit i queue) i)

end VirtioOsx
