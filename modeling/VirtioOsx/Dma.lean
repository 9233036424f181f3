import VirtioOsx.Virtqueue

/-! The part of `IODMACommand` that a submission relies on, taken as outcomes of its
calls. `genIOVMSegments` calls the command's output function once for each segment it
generates, never more often than the number passed in `*numSegments`, and reports in
`*numSegments` how many segments it generated. -/
namespace VirtioOsx

structure Segment64 where
  fIOVMAddr : Nat
  fLength : Nat
  deriving DecidableEq, Repr

def byteCount (segments : List Segment64) : Nat := (segments.map Segment64.fLength).sum

/-- `segments` are the output-function calls; `offset` is `*offset` on return. -/
structure GenOutcome where
  segments : List Segment64
  result : IOReturn
  offset : Nat

structure GenIOVMSegments where
  emit : Nat → GenOutcome
  bounded : ∀ limit, (emit limit).segments.length ≤ limit

/-- The offset a command reports is the number of bytes its segments cover. -/
def GenIOVMSegments.Honest (gen : GenIOVMSegments) : Prop :=
  ∀ limit, (gen.emit limit).offset = byteCount (gen.emit limit).segments

structure DmaCalls where
  setMemoryDescriptor : IOReturn
  genIOVMSegments : GenIOVMSegments

/-- The physical segments of a buffer. None of them is empty. -/
structure ScatterList where
  segments : List Segment64
  positive : ∀ s ∈ segments, 0 < s.fLength

/-- A command that stops only at the segment limit it was given. -/
def ScatterList.genIOVMSegments (list : ScatterList) : GenIOVMSegments where
  emit limit :=
    ⟨list.segments.take limit, .success, byteCount (list.segments.take limit)⟩
  bounded limit := List.length_take_le limit list.segments

def ScatterList.dma (list : ScatterList) : DmaCalls := ⟨.success, list.genIOVMSegments⟩

theorem byteCount_append (front rest : List Segment64) :
    byteCount (front ++ rest) = byteCount front + byteCount rest := by
  simp [byteCount]

/-- A truncated walk stops short of the end of the buffer. -/
theorem ScatterList.byteCount_take (list : ScatterList) :
    byteCount (list.segments.take limit) = byteCount list.segments ↔
      list.segments.length ≤ limit := by
  constructor
  · intro covered
    by_contra longer
    have split := byteCount_append (list.segments.take limit) (list.segments.drop limit)
    rw [List.take_append_drop] at split
    have inside : limit < list.segments.length := by omega
    have first := list.positive (list.segments[limit]) (List.getElem_mem inside)
    rw [List.drop_eq_getElem_cons inside] at split
    simp only [byteCount,List.map_cons,List.sum_cons] at split covered
    omega
  · intro short
    rw [List.take_of_length_le short]

end VirtioOsx
