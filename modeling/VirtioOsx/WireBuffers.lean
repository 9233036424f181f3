import VirtioOsx.MultiSubrange
import VirtioOsx.QueueClient
import VirtioOsx.SubmitAtomicity

/-! Submissions whose two buffers are mapped to their ends. What the device finds when it follows
the head of such a request are the bytes of the two buffers, from the time the queue takes the
request until the driver has got it back. -/
namespace VirtioOsx

open Runs

def Phase.Needs (needed : Prop) : Phase α → Prop
  | .next _ => needed
  | _ => True

theorem rollback_needs (visit : Nat → VirtioVirtqueue → VirtioVirtqueue) (start : Int)
    (q : VirtioVirtqueue) (result : IOReturn) (needed : Prop) :
    (rollback visit result start q : Phase α).Needs needed := by
  unfold rollback
  split
  · trivial
  · trivial

theorem submitDeviceReadable_needs (q : VirtioVirtqueue) (buf : IOMemoryDescriptor)
    (completion : VirtioCompletion) (dma : DmaCalls) (others : Nat) :
    (submitDeviceReadable q buf completion dma others).Needs (dma.setMemoryDescriptor = .success ∧
      (dma.genIOVMSegments.emit (q.numUnusedDescriptors - (others - 1))).incomplete buf =
        false) := by
  unfold submitDeviceReadable
  dsimp only
  split
  · trivial
  split
  · trivial
  rename_i attached
  split
  · trivial
  split
  · exact rollback_needs _ _ _ _ _
  · rename_i whole
    exact ⟨not_not.mp attached,Bool.eq_false_iff.mpr whole⟩

theorem submitDeviceWritable_needs (first : Nat) (chain : VringDescChain) (buf : IOMemoryDescriptor)
    (completion : VirtioCompletion) (dma : DmaCalls) :
    (submitDeviceWritable first chain buf completion dma).Needs
      ((dma.genIOVMSegments.emit chain.queue.numUnusedDescriptors).incomplete buf = false) := by
  unfold submitDeviceWritable
  dsimp only
  split
  · trivial
  split
  · exact rollback_needs _ _ _ _ _
  split
  · trivial
  split
  · exact rollback_needs _ _ _ _ _
  · rename_i whole
    exact Bool.eq_false_iff.mpr whole

theorem GenOutcome.offset_of_complete {outcome : GenOutcome}
    (complete : outcome.incomplete buf = false) : outcome.offset = buf.length := by
  simp only [GenOutcome.incomplete,Bool.or_eq_false_iff,bne_eq_false_iff_eq] at complete
  exact complete.2

structure EmittedWhole (call : SubmitCall) (buf writableBuf : IOMemoryDescriptor)
    (readable writable : GenOutcome) (entries : List Entry) : Prop where
  readableWalk : ∃ limit, readable = call.readable.genIOVMSegments.emit limit
  writableWalk : ∃ limit, writable = call.writable.genIOVMSegments.emit limit
  readableEnd : readable.offset = buf.length
  writableEnd : writable.offset = writableBuf.length
  entries : entries = readable.segments.map (fun segment => (segment, false)) ++
    writable.segments.map fun segment => (segment, true)

/-- A chain that has been built describes the whole of both buffers, in either mode. -/
theorem buildChain_whole (unused : Unused q free) (fits : free.length ≤ q.numEntries)
    (readable : call.readableBuffer = some buf) (writable : call.writableBuffer = some writableBuf)
    (built : buildChain q call = .next (head, q')) :
    ∃ first second, EmittedWhole call buf writableBuf first second (emittedEntries q call) := by
  by_cases mode : q.indirectDescriptors = true
  · have built : buildIndirectChain q call = .next (head,q') := by
      simpa [buildChain,mode] using built
    cases free with
    | nil =>
      rw [buildIndirectChain_empty unused] at built
      cases built
    | cons i rest =>
      have place : q.firstUnusedDescriptorIndex = i := unused.listed.1
      obtain ⟨_,first,second⟩ := buildIndirectChain_covers unused built
      refine ⟨readableOutcome (tableSlots q i) call,writableOutcome (tableSlots q i) call,⟨_,rfl⟩,
        ⟨_,rfl⟩,(first buf readable).2,(second writableBuf writable).2,?_⟩
      rw [emittedEntries,if_pos mode,place,Int.toNat_natCast]
      simp [indirectEntries,indirectReadable,indirectWritable,readable,writable]
  · have direct : q.indirectDescriptors = false := by simpa using mode
    have accepted : ¬RefusedEarly q call := by
      intro refused
      obtain ⟨_,_,left⟩ := buildChain_refused refused
      rw [left] at built
      cases built
    obtain ⟨i,free,rfl⟩ := accepted_cons direct unused accepted
    have built : buildDirectChain q call = .next (head,q') := by
      simpa [buildChain,direct] using built
    rw [buildDirectChain_accepted direct accepted,readable,writable] at built
    dsimp only at built
    cases half : submitDeviceReadable q buf call.completion call.readable call.minDescsRequired with
    | returned result queue => simp [half,Phase.bind] at built
    | stuck => simp [half,Phase.bind] at built
    | next value =>
      have needs := submitDeviceReadable_needs q buf call.completion call.readable
        call.minDescsRequired
      rw [half] at needs
      obtain ⟨attached,whole⟩ := needs
      obtain ⟨chain,again,clear,building⟩ := readable_completed unused fits readable attached whole
      obtain rfl := Phase.next.inj (half.symm.trans again)
      rw [half,Phase.bind_next] at built
      cases other : submitDeviceWritable i chain writableBuf call.completion call.writable with
      | returned result queue => simp [other,Phase.bind] at built
      | stuck => simp [other,Phase.bind] at built
      | next value =>
        have complete := submitDeviceWritable_needs i chain writableBuf call.completion
          call.writable
        rw [other] at complete
        replace complete : (call.writable.genIOVMSegments.emit
          chain.queue.numUnusedDescriptors).incomplete writableBuf = false := complete
        rw [writableWalk_eq unused (building.unused clear)] at complete
        refine ⟨readableWalk q call,writableWalk q call,⟨_,rfl⟩,⟨_,rfl⟩,
          GenOutcome.offset_of_complete whole,GenOutcome.offset_of_complete complete,?_⟩
        rw [emittedEntries,if_neg mode,directEntries,readableSegments_walk readable,
          writableSegments_walk writable]

/-- The positions at which a walk through the subrange by its runs begins one of them. -/
inductive Subrange.Visited (s : Subrange) : Nat → Prop where
  | first : s.Visited 0
  | next : s.Visited o → s.Visited (o + s.md.run (s.offset + o))

/-- No run leaves the subrange that a walk comes to inside of it. The first run is cut off. -/
def Subrange.Walkable (s : Subrange) : Prop :=
  ∀ o, s.Visited o → 0 < o → o < s.length → s.md.run (s.offset + o) ≤ s.length - o

def VisitedAt : List Subrange → Nat → Prop
  | [], _ => True
  | s :: rest, offset =>
    if offset < s.length then s.Visited offset else VisitedAt rest (offset - s.length)

theorem visitedAt_start (subranges : List Subrange) : VisitedAt subranges 0 := by
  induction subranges with
  | nil => trivial
  | cons s rest ih =>
    unfold VisitedAt
    split
    · exact .first
    · rwa [Nat.zero_sub]

theorem visitedAt_next (walkable : ∀ s ∈ subranges, s.Walkable)
    (visited : VisitedAt subranges offset) (below : offset < totalLength subranges) :
    SegmentCorrect i subranges offset ∧
      VisitedAt subranges (offset + (getPhysicalSegment subranges offset).2) := by
  induction subranges generalizing i offset with
  | nil => simp [totalLength] at below
  | cons s rest ih =>
    obtain ⟨here,later⟩ := List.forall_mem_cons.mp walkable
    by_cases inFirst : offset < s.length
    · have visited : s.Visited offset := (if_pos inFirst).mp visited
      have fits : s.Fits offset := by
        rcases Nat.eq_zero_or_pos offset with first | inner
        · exact .inl first
        · exact .inr (here offset visited inner inFirst)
      refine ⟨(segmentCorrect_here s rest inFirst).mpr fits,?_⟩
      rw [getPhysicalSegment_here s rest inFirst]
      unfold VisitedAt
      split
      · rename_i inside
        dsimp only at inside ⊢
        rw [Nat.min_eq_left (by omega)]
        exact .next visited
      · rename_i outside
        dsimp only at outside ⊢
        have ends : offset + min (s.md.run (s.offset + offset)) s.length - s.length = 0 := by
          rcases fits with first | fits <;> omega
        rw [ends]
        exact visitedAt_start rest
    · have total : totalLength (s :: rest) = s.length + totalLength rest := by simp [totalLength]
      have visited : VisitedAt rest (offset - s.length) := (if_neg inFirst).mp visited
      obtain ⟨correct,next⟩ := ih (i := i + 1) later visited (by omega)
      refine ⟨(segmentCorrect_later s rest (by omega)).mpr correct,?_⟩
      rw [getPhysicalSegment_later s rest (by omega)]
      unfold VisitedAt
      rw [if_neg (by omega)]
      have shifted : offset + (getPhysicalSegment rest (offset - s.length)).2 - s.length =
          offset - s.length + (getPhysicalSegment rest (offset - s.length)).2 := by omega
      rwa [shifted]

theorem walkSegments_visited (walkable : ∀ s ∈ subranges, s.Walkable)
    (visited : VisitedAt subranges offset) (reached : offset ≤ totalLength subranges)
    (fuel : totalLength subranges - offset ≤ steps) :
    ∃ segments, walkSegments subranges steps offset = some segments ∧
      segments.flatMap runAddresses =
        ((concatenation 0 subranges).drop offset).map Located.address := by
  induction steps generalizing offset with
  | zero =>
    obtain rfl : offset = totalLength subranges := by omega
    refine ⟨[],by simp [walkSegments],?_⟩
    rw [← length_concatenation 0 subranges,List.drop_length]
    rfl
  | succ steps ih =>
    by_cases done : offset = totalLength subranges
    · refine ⟨[],by simp [walkSegments,done],?_⟩
      rw [done,← length_concatenation 0 subranges,List.drop_length]
      rfl
    · obtain ⟨correct,next⟩ := visitedAt_next (i := 0) walkable visited (by omega)
      obtain ⟨inside,piece⟩ := correct.piece
      have positive := correct.1
      obtain ⟨segments,walked,covers⟩ := ih next inside (by omega)
      refine ⟨getPhysicalSegment subranges offset :: segments,?_,?_⟩
      · rw [walkSegments,if_neg done]
        simp [walked]
      · rw [List.flatMap_cons,covers,piece]

def Subrange.addresses (s : Subrange) : List Nat :=
  (List.range s.length).map fun j => s.md.address (s.offset + j)

def byteAddresses (subranges : List Subrange) : List Nat := subranges.flatMap Subrange.addresses

theorem concatenation_addresses (i : Nat) (subranges : List Subrange) :
    (concatenation i subranges).map Located.address = byteAddresses subranges := by
  induction subranges generalizing i with
  | nil => rfl
  | cons s rest ih =>
    simp only [concatenation,List.map_append,ih,byteAddresses,List.flatMap_cons,Subrange.bytes,
      List.map_map]
    rfl

theorem length_byteAddresses (subranges : List Subrange) :
    (byteAddresses subranges).length = totalLength subranges := by
  rw [← concatenation_addresses 0,List.length_map,length_concatenation]

/-- The part of a descriptor from `offset` on, as a list of one subrange; it is empty if the part
is not within the descriptor. -/
def PhysicalMemory.part (md : PhysicalMemory) (offset length : Nat) : List Subrange :=
  if inside : offset + length ≤ md.length then [⟨md, offset, length, inside⟩] else []

def PhysicalMemory.bytes (md : PhysicalMemory) (offset length : Nat) : List Nat :=
  (List.range length).map fun j => md.address (offset + j)

theorem PhysicalMemory.part_append {md : PhysicalMemory} {offset length : Nat}
    (inside : offset + length ≤ md.length) (rest : List Subrange) :
    totalLength (md.part offset length ++ rest) = length + totalLength rest ∧
      byteAddresses (md.part offset length ++ rest) =
        md.bytes offset length ++ byteAddresses rest := by
  rw [part,dif_pos inside]
  exact ⟨rfl,rfl⟩

/-- The command walks the descriptor by the segments that it returns, from its start on. It may
divide and join them. -/
structure DmaCalls.Maps (calls : DmaCalls) (subranges : List Subrange) : Prop where
  short : ∀ limit, ∀ segment ∈ (calls.genIOVMSegments.emit limit).segments, segment.fLength < 2^32
  walks : ∀ answers, walkSegments subranges (totalLength subranges) 0 = some answers → ∀ limit,
    ((calls.genIOVMSegments.emit limit).segments.flatMap fun segment =>
      runAddresses (segment.fIOVMAddr, segment.fLength)) =
      (answers.flatMap runAddresses).take (calls.genIOVMSegments.emit limit).offset

def DeviceSegment.addresses (s : DeviceSegment) : List Nat := runAddresses (s.address, s.length)

theorem DmaCalls.Maps.whole {calls : DmaCalls} {subranges : List Subrange}
    (maps : calls.Maps subranges) (walkable : ∀ s ∈ subranges, s.Walkable) (writable : Bool)
    (ends : (calls.genIOVMSegments.emit limit).offset = totalLength subranges) :
    ((calls.genIOVMSegments.emit limit).segments.flatMap fun segment =>
      (segment.seen writable).addresses) = byteAddresses subranges := by
  obtain ⟨answers,walked,covers⟩ := walkSegments_visited walkable (visitedAt_start subranges)
    (Nat.zero_le _) (Nat.sub_le (totalLength subranges) 0)
  have seen : ((calls.genIOVMSegments.emit limit).segments.flatMap fun segment =>
      (segment.seen writable).addresses) =
      (calls.genIOVMSegments.emit limit).segments.flatMap fun segment =>
        runAddresses (segment.fIOVMAddr, segment.fLength) := by
    refine List.flatMap_congr fun segment member => ?_
    have short := maps.short limit segment member
    simp only [DeviceSegment.addresses,Segment64.seen,Nat.mod_eq_of_lt short]
  rw [seen,maps.walks answers walked limit,covers,List.drop_zero,concatenation_addresses,ends,
    ← length_byteAddresses,List.take_length]

theorem describedBuffer_some (b : IOMemoryDescriptor) (pos : 0 < b.length) :
    describedBuffer (some b) = some b := by
  simp [describedBuffer,Option.filter,Nat.pos_iff_ne_zero.mp pos]

structure SubmitCall.MapsTo (q : VirtioVirtqueue) (call : SubmitCall)
    (toDevice fromDevice : List Subrange) : Prop where
  emittable : Emittable q call
  readable : call.readable.Maps toDevice
  writable : call.writable.Maps fromDevice
  walkableTo : ∀ s ∈ toDevice, s.Walkable
  walkableFrom : ∀ s ∈ fromDevice, s.Walkable

structure SubmitCall.Measures (call : SubmitCall) (toDevice fromDevice : List Subrange) : Prop where
  readable : ∃ buf, call.readableBuffer = some buf ∧ buf.length = totalLength toDevice
  writable : ∃ buf, call.writableBuffer = some buf ∧ buf.length = totalLength fromDevice

/-- What the chain of a request describes: the bytes at the `outgoing` addresses for the device
to read, and those at the `incoming` addresses for it to write. -/
structure FoundOnWire (q : VirtioVirtqueue) (r : Request) (outgoing incoming : List Nat) : Prop where
  described : ∃ first second : List Segment64,
    Described q r (first.map (fun segment => (segment, false)) ++
      second.map fun segment => (segment, true)) ∧
    (first.flatMap fun segment => (segment.seen false).addresses) = outgoing ∧
    (second.flatMap fun segment => (segment.seen true).addresses) = incoming

theorem FoundOnWire.kept {q q' : VirtioVirtqueue} (found : FoundOnWire q r outgoing incoming)
    (kept : Kept r q q') : FoundOnWire q' r outgoing incoming := by
  obtain ⟨first,second,described,rest⟩ := found.described
  exact ⟨first,second,described.kept kept,rest⟩

namespace MachineInv

variable {m m' : Machine}

theorem accepted_found (inv : MachineInv n lost m) (maps : call.MapsTo m.queue toDevice fromDevice)
    (measures : call.Measures toDevice fromDevice) (moved : step (.submit call) m = some m')
    (accepted : m'.submitting = some (.slot r)) :
    FoundOnWire m'.queue r (byteAddresses toDevice) (byteAddresses fromDevice) := by
  have described := (inv.accepted_described maps.emittable moved accepted).2
  obtain ⟨buf,first,firstLength⟩ := measures.readable
  obtain ⟨writableBuf,second,secondLength⟩ := measures.writable
  obtain ⟨free,partition⟩ := inv.partition
  have fits : free.length ≤ m.queue.numEntries := partition.size.symm ▸ partition.fits
  obtain ⟨quiet,⟨head,queue,built,same⟩ | ⟨result,queue,left,same⟩⟩ := Machine.submit_cases moved
  · obtain ⟨_,_,⟨limit,rfl⟩,⟨limit',rfl⟩,readableEnd,writableEnd,entries⟩ :=
      buildChain_whole partition.unused fits first second built
    rw [entries] at described
    exact ⟨_,_,described,maps.readable.whole maps.walkableTo false (readableEnd.trans firstLength),
      maps.writable.whole maps.walkableFrom true (writableEnd.trans secondLength)⟩
  · rw [same] at accepted
    simp [quiet] at accepted

theorem entered (inv : MachineInv n lost m) (taken : step a m = some m')
    (member : r ∈ m'.inflight) : r ∈ m.inflight ∨ ∃ call, a = .submit call ∧
      m'.submitting = some (.slot r) ∧ r.completion = call.completion := by
  by_cases submitting : ∃ call, a = .submit call
  · obtain ⟨call,rfl⟩ := submitting
    obtain ⟨quiet,⟨head,queue,built,rfl⟩ | ⟨result,queue,left,rfl⟩⟩ := Machine.submit_cases taken
    · have split : r = builtRequest queue head call.completion ∨ r ∈ m.inflight := by
        simpa [Machine.inflight,Machine.unconsumed,Machine.unprocessed,unpublished,quiet]
          using member
      rcases split with rfl | old
      · exact .inr ⟨call,rfl,rfl,rfl⟩
      · exact .inl old
    · exact .inl member
  · left
    by_cases advancing : a = .advance
    · subst a
      obtain ⟨_,untouched | ⟨e,quiet,oldest,_,inflight,_⟩⟩ := inv.advanced taken
      · exact untouched.inflight.mem_iff.mpr member
      · rw [inflight] at member
        exact (Machine.inflight_oldest quiet oldest).mem_iff.mpr (List.mem_cons_of_mem _ member)
    · exact (inv.untouched taken (not_exists.mp submitting) advancing).inflight.mem_iff.mpr member

end MachineInv

theorem ScatterList.maps (list : ScatterList) (answers : List (Nat × Nat))
    (walked : walkSegments subranges (totalLength subranges) 0 = some answers)
    (same : list.segments = answers.map fun answer => ⟨answer.1, answer.2⟩)
    (short : ∀ answer ∈ answers, answer.2 < 2^32) : list.dma.Maps subranges where
  short limit segment member := by
    have inside : segment ∈ list.segments := List.mem_of_mem_take member
    rw [same] at inside
    obtain ⟨answer,there,rfl⟩ := List.mem_map.mp inside
    exact short answer there
  walks others again limit := by
    obtain rfl := Option.some.inj (walked.symm.trans again)
    simp only [ScatterList.dma,ScatterList.genIOVMSegments,same,← List.map_take]
    clear walked again same short
    induction answers generalizing limit with
    | nil => simp
    | cons answer rest ih =>
      cases limit with
      | zero => simp [byteCount]
      | succ limit =>
        have later := ih limit
        simp only [List.take_succ_cons,List.map_cons,List.flatMap_cons,byteCount,List.sum_cons]
        simp only [byteCount] at later
        have first (more : Nat) : (runAddresses answer).take (answer.2 + more) =
            runAddresses answer := List.take_of_length_le (by simp [runAddresses])
        rw [later,List.take_append,first]
        simp [runAddresses]

def PhysicalMemory.atAddress (base length : Nat) (small : length < 2^64) : PhysicalMemory where
  length := length
  address o := base + o
  run o := length - o
  addressable := small
  positive o below := by omega
  bounded o below := by omega
  contiguous o _ j _ := by omega

end VirtioOsx
