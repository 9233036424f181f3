import VirtioOsx.CompletionRuns

/-! What the device reads when it follows a published head, and what it reads there after
a direct submission. -/
namespace VirtioOsx

/-- Follow `next` while NEXT is set. The walk is absent when it has not ended after
`fuel` descriptors. -/
def followNext (table : Nat → VirtioVringDesc) : Nat → Nat → Option (List Nat)
  | 0, _ => none
  | fuel + 1, i =>
    if (table i).flags &&& VirtioVringDescFlag.next = 0 then some [i]
    else (followNext table fuel (table i).next).map (i :: ·)

structure DeviceSegment where
  address : Nat
  length : Nat
  writable : Bool
  indirect : Bool
  deriving DecidableEq, Repr

def deviceSegment (d : VirtioVringDesc) : DeviceSegment :=
  ⟨d.physAddress, d.lengthBytes, d.flags &&& VirtioVringDescFlag.deviceWritable != 0,
    d.flags &&& VirtioVringDescFlag.indirect != 0⟩

def Segment64.seen (segment : Segment64) (writable : Bool) : DeviceSegment :=
  ⟨segment.fIOVMAddr, segment.fLength % 2^32, writable, false⟩

theorem deviceSegment_descriptorOf (entry : Entry) (successor : Option Nat) :
    deviceSegment (descriptorOf entry successor) = entry.1.seen entry.2 := by
  obtain ⟨segment,writable⟩ := entry
  cases writable <;> cases successor <;>
    simp [deviceSegment,descriptorOf,entryFlags,Segment64.seen,VirtioVringDescFlag.next,
      VirtioVringDescFlag.deviceWritable,VirtioVringDescFlag.indirect]

theorem next_descriptorOf (entry : Entry) (successor : Option Nat) :
    (descriptorOf entry successor).flags &&& VirtioVringDescFlag.next = 0 ↔ successor = none := by
  obtain ⟨segment,writable⟩ := entry
  cases writable <;> cases successor <;>
    simp [descriptorOf,entryFlags,VirtioVringDescFlag.next,VirtioVringDescFlag.deviceWritable]

/-- The device's walk over an encoded chain visits its descriptors and no others. -/
theorem Encodes.walked (encodes : Encodes table (i :: rest) entries)
    (enough : (i :: rest).length ≤ fuel) : followNext table fuel i = some (i :: rest) := by
  induction rest generalizing i entries fuel with
  | nil =>
    match entries, encodes with
    | [entry], encodes =>
      obtain ⟨fuel,rfl⟩ : ∃ k, fuel = k + 1 := ⟨fuel - 1,by simp at enough; omega⟩
      rw [followNext,encodes.1,List.head?_nil,
        if_pos ((next_descriptorOf entry none).mpr rfl)]
  | cons j rest ih =>
    match entries, encodes with
    | entry :: entries, encodes =>
      obtain ⟨fuel,rfl⟩ : ∃ k, fuel = k + 1 := ⟨fuel - 1,by simp at enough; omega⟩
      have linked : ¬(descriptorOf entry (some j)).flags &&& VirtioVringDescFlag.next = 0 :=
        fun ended => by simpa using (next_descriptorOf entry (some j)).mp ended
      have later := ih encodes.2 (by simpa using enough)
      rw [followNext,encodes.1,List.head?_cons,if_neg linked]
      simp [descriptorOf,later]

theorem Encodes.seen (encodes : Encodes table nodes entries) :
    nodes.map (fun i => deviceSegment (table i)) = entries.map fun e => e.1.seen e.2 := by
  induction nodes generalizing entries with
  | nil =>
    match entries, encodes with
    | [], _ => rfl
  | cons i rest ih =>
    match entries, encodes with
    | entry :: entries, encodes =>
      rw [List.map_cons,List.map_cons,ih encodes.2,encodes.1,deviceSegment_descriptorOf]

/-- What the device and the driver find when they follow the head of a direct request. -/
structure DirectChain (n : Nat) (q q' : VirtioVirtqueue) (call : SubmitCall)
    (inflight : List Request) (head : Nat) (descs : List Nat) : Prop where
  walk : followNext q'.descriptorTable n head = some descs
  segments : descs.map (fun i => deviceSegment (q'.descriptorTable i)) =
    (readableSegments q call).map (·.seen false) ++ (writableSegments q call).map (·.seen true)
  distinct : descs.Nodup
  links : Listed q'.nextDesc head descs
  others : ∀ r ∈ inflight, ∀ i ∈ r.descs,
    q'.descriptorTable i = q.descriptorTable i ∧ q'.descriptorBuffers i = q.descriptorBuffers i

theorem DirectChain.of_built (partition : Partition n q free inflight lost)
    (split : free = descs ++ rest)
    (built : Built q q' call.completion (directEntries q call) head descs rest) :
    DirectChain n q q' call inflight head descs := by
  have distinct : descs.Nodup := by
    have nodup := partition.unused.nodup
    rw [split] at nodup
    exact (List.nodup_append.mp nodup).1
  have inside : ∀ i ∈ descs, i < n := fun i member =>
    partition.bound (List.mem_append_left _ (by simp [split,member]))
  obtain ⟨tail,rfl⟩ : ∃ tail, descs = head :: tail := List.head?_eq_some_iff.mp built.starts
  refine ⟨built.encodes.walked (length_le_of_small distinct inside),?_,distinct,built.listed,
    fun r member i there => ?_⟩
  · rw [built.encodes.seen]
    simp [directEntries,Function.comp_def]
  · have apart : i ∉ head :: tail := fun inChain =>
      partition.apart member i there (by rw [split]; exact List.mem_append_left _ inChain)
    exact ⟨built.agree.table i apart,built.agree.buffers i apart⟩

def newSlot (q q' : VirtioVirtqueue) : Nat :=
  q'.availableRing.ring (q.availableRing.headIndex % q.numEntries)

theorem newSlot_added (agree : Agree descs q q') (head : Nat) :
    newSlot q (virtioVirtqueueAddDescriptorToRing q' head) = head := by
  simp [newSlot,virtioVirtqueueAddDescriptorToRing,writeHeadIndex,writeRingSlot,
    agree.availableRing,agree.numEntries]

theorem directChain_accepted (partition : Partition n q free inflight lost)
    (direct : q.indirectDescriptors = false) (returned : submitBuffers q call = some ret)
    (accepted : ret.result = .success) :
    ∃ descs, DirectChain n q ret.queue call inflight (newSlot q ret.queue) descs := by
  have succeeds : Succeeds q call := by simp [Succeeds,returned,accepted]
  have fits : free.length ≤ q.numEntries := partition.size.symm ▸ partition.fits
  have outcome := buildDirectChain_spec partition.unused fits
    fun unlinked => succeeds.not_corrupting ⟨direct,unlinked⟩
  have mode : buildChain q call = buildDirectChain q call := by simp [buildChain,direct]
  rcases submitBuffers_cases returned with ⟨head,q',built,_,queue⟩ | left
  · rw [← mode,built] at outcome
    obtain ⟨descs,rest,split,built⟩ := outcome
    have chain := DirectChain.of_built partition split built
    rw [queue,newSlot_added built.agree]
    exact ⟨descs,chain.walk,chain.segments,chain.distinct,chain.links,chain.others⟩
  · rw [← mode,left] at outcome
    exact absurd accepted outcome.1

/-- In every state in which the descriptors are partitioned, an accepted direct request is
encoded as the segments its buffers were emitted as. -/
theorem direct_chain_encoded (n : Nat) (q : VirtioVirtqueue) (free : List Nat)
    (inflight : List Request) (lost : List Nat) (partition : Partition n q free inflight lost)
    (direct : q.indirectDescriptors = false) (call : SubmitCall) (ret : SubmitReturn)
    (returned : submitBuffers q call = some ret) (accepted : ret.result = .success) :
    ∃ descs, DirectChain n q ret.queue call inflight (newSlot q ret.queue) descs :=
  directChain_accepted partition direct returned accepted

def exchange : SubmitCall :=
  ⟨some ⟨1, 612⟩, some ⟨2, 512⟩, ⟨1, 2, 3⟩, (ScatterList.mk [⟨8192, 512⟩, ⟨16384, 100⟩] (by simp)).dma,
    sector.dma, sector.dma⟩

theorem direct_chain_encoded_exchange :
    ∃ ret descs, submitBuffers (initialQueue 4 true false (readyCalls 4 64)) exchange = some ret ∧
      descs.length = 3 ∧
      DirectChain 4 (initialQueue 4 true false (readyCalls 4 64)) ret.queue exchange []
        (newSlot (initialQueue 4 true false (readyCalls 4 64)) ret.queue) descs := by
  have submitted : (submitBuffers (initialQueue 4 true false (readyCalls 4 64)) exchange).map
      SubmitReturn.result = some .success := by decide +kernel
  obtain ⟨ret,returned,accepted⟩ := Option.map_eq_some_iff.mp submitted
  obtain ⟨descs,chain⟩ := direct_chain_encoded 4 _ _ [] []
    (partition_initial (by decide) true false (readyCalls 4 64)) rfl exchange ret returned accepted
  have three := congrArg List.length chain.segments
  simp only [List.length_map,List.length_append] at three
  exact ⟨ret,descs,returned,three,chain⟩

end VirtioOsx
