import VirtioOsx.DeviceView

/-! What the device reads after an indirect submission: a table that is linked from its
first entry on, described by a single descriptor. It finds there what a direct
submission of the same segments would have shown it. -/
namespace VirtioOsx

def IndirectSegmentState.table (state : IndirectSegmentState) : Nat → VirtioVringDesc :=
  (state.queue.descriptorBuffers state.descArray).indirectDescriptors.entries

/-- The first entries of the table, linked in order, describe the segments emitted. -/
structure Filled (state : IndirectSegmentState) (entries : List Entry) : Prop where
  index : state.nextDescriptorIndex = entries.length
  encodes : Encodes state.table (List.range entries.length) entries

theorem uint16_int16 (i : Nat) : uint16 (int16 i) = uint16 i := by
  unfold uint16 int16
  split <;> omega

/-- The index matters only as it is stored in a `uint16_t`. -/
theorem fillVringDescriptor_index (same : uint16 i = uint16 j) (table : Nat → VirtioVringDesc)
    (descriptor : Nat) (previous : Option Nat) (segment : Segment64) (writable : Bool) :
    fillVringDescriptor table descriptor i previous segment writable =
      fillVringDescriptor table descriptor j previous segment writable := by
  simp [fillVringDescriptor,same]

theorem table_output (state : IndirectSegmentState) (segment : Segment64) :
    (outputIndirectVringDescSegment state segment).table =
      fillVringDescriptor state.table state.nextDescriptorIndex state.nextDescriptorIndex
        (if state.nextDescriptorIndex = 0 then none else some (state.nextDescriptorIndex - 1))
        segment state.writable := by
  rw [← fillVringDescriptor_index (uint16_int16 _)]
  simp [IndirectSegmentState.table,outputIndirectVringDescSegment_eq,outputEntry]

/-- One output-function call appends an entry to the table, whatever it held before. -/
theorem Filled.append (filled : Filled state entries) (room : entries.length + 1 < 65536)
    (segment : Segment64) :
    Filled (outputIndirectVringDescSegment state segment)
      (entries ++ [(segment,state.writable)]) := by
  have index := filled.index
  refine ⟨?_,?_⟩
  · rw [outputIndirectVringDescSegment_eq]
    simp only [List.length_append,List.length_singleton]
    omega
  rw [table_output state segment,index]
  rcases List.eq_nil_or_concat' entries with rfl | ⟨front,last,rfl⟩
  · exact encodes_single _ 0 _ segment state.writable
  · have encodes := filled.encodes
    simp only [List.length_append,List.length_singleton,List.range_succ] at encodes ⊢
    rw [if_neg (Nat.succ_ne_zero front.length),Nat.add_sub_cancel]
    exact encodes.snoc (by simp) (by simp) (by simp at room; omega)

theorem writable_output (state : IndirectSegmentState) (segment : Segment64) :
    (outputIndirectVringDescSegment state segment).writable = state.writable := rfl

theorem Filled.emit (filled : Filled state entries) (segments : List Segment64)
    (room : entries.length + segments.length < 65536) :
    Filled (segments.foldl outputIndirectVringDescSegment state)
      (entries ++ segments.map fun segment => (segment,state.writable)) := by
  induction segments generalizing state entries with
  | nil => simpa using filled
  | cons segment segments ih =>
    have room' : entries.length + (segments.length + 1) < 65536 := room
    have first := filled.append (by omega) segment
    have later := ih first (by
      simp only [List.length_append,List.length_singleton]
      omega)
    rw [writable_output] at later
    simpa using later

theorem Filled.modify (filled : Filled state entries) (f)
    (kept : ∀ b, (f b).indirectDescriptors.entries = b.indirectDescriptors.entries) :
    Filled { state with queue := state.queue.modifyBuffer state.descArray f } entries := by
  refine ⟨filled.index,?_⟩
  have same : (IndirectSegmentState.mk (state.queue.modifyBuffer state.descArray f) state.descArray
      state.nextDescriptorIndex state.writable).table = state.table := by
    simp [IndirectSegmentState.table,kept]
  rw [same]
  exact filled.encodes

theorem filled_attached (attaches : Attaches attach) (filled : Filled output entries)
    (buf : IOMemoryDescriptor) (dma : DmaCalls) :
    Filled (attached attach buf dma output) entries := by
  unfold attached
  split
  · exact filled.modify _ fun b => by rw [attaches.table]
  · exact filled

theorem writable_attached (attach : Option IOMemoryDescriptor → VirtioBuffer → VirtioBuffer)
    (buf : IOMemoryDescriptor) (dma : DmaCalls) (output : IndirectSegmentState) :
    (attached attach buf dma output).writable = output.writable := by
  unfold attached
  split <;> rfl

/-- A half that succeeds has appended the segments of its buffer. -/
theorem Filled.generate (attaches : Attaches attach) (filled : Filled output entries)
    (buf : IOMemoryDescriptor) (dma : DmaCalls) (min max : Nat)
    (room : entries.length +
      (dma.genIOVMSegments.emit (max - (min - 1))).segments.length < 65536)
    (success : (generateIndirectSegmentDma attach buf dma min max output).result = .success) :
    Filled (generateIndirectSegmentDma attach buf dma min max output).output
      (entries ++ (dma.genIOVMSegments.emit (max - (min - 1))).segments.map
        fun segment => (segment,output.writable)) := by
  have emitted := (filled_attached attaches filled buf dma).emit _ room
  rw [writable_attached] at emitted
  unfold attached at emitted
  unfold generateIndirectSegmentDma at success ⊢
  dsimp only at success ⊢
  split
  · rename_i failed
    rw [if_pos failed] at success
    exact absurd success (GenOutcome.failure_ne _)
  · exact emitted

def indirectEntries (slots : Nat) (call : SubmitCall) : List Entry :=
  (indirectReadable slots call).map (fun segment => (segment,false)) ++
    (indirectWritable slots call).map (fun segment => (segment,true))

theorem filled_readable (q : VirtioVirtqueue) (i slots : Nat) (call : SubmitCall)
    (room : (indirectReadable slots call).length < 65536)
    (success : (generateReadable q i call slots).result = .success) :
    Filled (generateReadable q i call slots).output
      ((indirectReadable slots call).map fun segment => (segment,false)) := by
  have empty : Filled ⟨q,i,0,false⟩ [] := ⟨rfl,trivial⟩
  unfold generateReadable at success ⊢
  cases given : call.readableBuffer with
  | none => simpa [indirectReadable,given] using empty
  | some buf =>
    simp only [given] at success
    have emitted : indirectReadable slots call = (readableOutcome slots call).segments := by
      simp [indirectReadable,given]
    rw [emitted] at room ⊢
    have filled := empty.generate attaches_first buf call.readable call.minDescsRequired slots
      (by simpa [readableOutcome] using room) success
    simpa [readableOutcome] using filled

theorem filled_writable (first : ReadableGenerated q i slots call readable)
    (filled : Filled readable.output ((indirectReadable slots call).map fun s => (s,false)))
    (room : (indirectReadable slots call).length + (indirectWritable slots call).length < 65536)
    (good : readable.result = .success)
    (success : (generateWritable call readable).result = .success) :
    Filled (generateWritable call readable).output (indirectEntries slots call) := by
  unfold generateWritable at success ⊢
  cases given : call.writableBuffer with
  | none => simpa [indirectEntries,indirectWritable,given] using filled
  | some buf =>
    simp only [given] at success
    have emitted : indirectWritable slots call = (writableOutcome slots call).segments := by
      simp [indirectWritable,given]
    have limit : readable.maxSegments - (readable.minDescsRequired - 1) =
        slots - (indirectReadable slots call).length := by
      rw [first.max good,first.min]
      simp [given]
    have start : Filled { readable.output with writable := true }
        ((indirectReadable slots call).map fun s => (s,false)) := ⟨filled.index,filled.encodes⟩
    rw [emitted] at room
    have both := start.generate attaches_second buf call.writable readable.minDescsRequired
      readable.maxSegments (by rw [limit]; simpa [writableOutcome] using room) success
    rw [limit] at both
    simpa [indirectEntries,emitted,writableOutcome] using both

theorem fillIndirectTable_filled
    (room : (indirectReadable slots call).length + (indirectWritable slots call).length < 65536)
    (filledTable : fillIndirectTable q i call slots = .next output) :
    output.descArray = i ∧ Filled output (indirectEntries slots call) := by
  have first := generateReadable_spec q i slots call
  unfold fillIndirectTable at filledTable
  dsimp only at filledTable
  split at filledTable
  · cases filledTable
  rename_i success
  have success : (generateReadable q i call slots).result = .success := by simpa using success
  have second := generateWritable_spec first success
  split at filledTable
  · cases filledTable
  rename_i good
  have good : (generateWritable call (generateReadable q i call slots)).result = .success := by
    simpa using good
  injection filledTable with same
  subst same
  have filled := filled_readable q i slots call (by omega) success
  exact ⟨second.advanced.descArray.trans first.advanced.descArray,
    filled_writable first filled room success good⟩

/-- A descriptor for a table, as the last of its segments leaves it. -/
def tableDescriptor (segment : Segment64) : VirtioVringDesc :=
  ⟨segment.fIOVMAddr, segment.fLength % 2^32, VirtioVringDescFlag.indirect, 0xffff⟩

theorem describeIndirectTable_next (same : output.descArray = i)
    (described : describeIndirectTable output i call = .next (head, q')) :
    (q'.descriptorBuffers i).indirectDescriptors.entries = output.table ∧
      (call.table.genIOVMSegments.emit 1).offset = output.nextDescriptorIndex * sizeofTableEntry ∧
      ∃ segment, (call.table.genIOVMSegments.emit 1).segments = [segment] ∧
        q'.descriptorTable i = tableDescriptor segment := by
  unfold describeIndirectTable at described
  dsimp only at described
  split at described
  · cases described
  split at described
  · cases described
  rename_i covered
  push Not at covered
  obtain ⟨_,some,offset⟩ := covered
  obtain ⟨segment,emitted⟩ : ∃ segment, (call.table.genIOVMSegments.emit 1).segments = [segment] :=
    List.length_eq_one_iff.mp (Nat.le_antisymm (call.table.genIOVMSegments.bounded 1) some)
  injection described with pair
  have queue := congrArg Prod.snd pair
  simp only [emitted,List.foldl_cons,List.foldl_nil] at queue
  refine ⟨?_,offset,segment,emitted,?_⟩
  · rw [← queue,IndirectSegmentState.table,same]
    simp [outputVringDescSegmentForIndirectTable]
  · rw [← queue]
    simp [outputVringDescSegmentForIndirectTable,fillVringDescriptor,tableDescriptor]

/-- What the device can reach from the head of an indirect request. -/
structure IndirectChain (q' : VirtioVirtqueue) (call : SubmitCall) (head : Nat)
    (entries : List Entry) : Prop where
  described : ∃ segment, (call.table.genIOVMSegments.emit 1).segments = [segment] ∧
    q'.descriptorTable head = tableDescriptor segment ∧
    (call.table.genIOVMSegments.emit 1).offset = entries.length * sizeofTableEntry
  encodes : Encodes (q'.descriptorBuffers head).indirectDescriptors.entries
    (List.range entries.length) entries

theorem buildIndirectChain_encodes (unused : Unused q (i :: rest))
    (room : (indirectReadable (tableSlots q i) call).length +
      (indirectWritable (tableSlots q i) call).length < 65536)
    (built : buildIndirectChain q call = .next (head, q')) :
    IndirectChain q' call head (indirectEntries (tableSlots q i) call) := by
  have outcome := buildIndirectChain_spec unused call
  rw [built] at outcome
  obtain ⟨rfl,_⟩ := outcome
  rw [buildIndirectChain_eq unused] at built
  split at built
  · cases built
  split at built
  · cases built
  revert built
  cases filling : fillIndirectTable _ head call (tableSlots q head) with
  | returned result queue => exact fun built => by cases built
  | stuck => exact fun built => by cases built
  | next output =>
    intro described
    rw [Phase.bind_next] at described
    obtain ⟨same,filled⟩ := fillIndirectTable_filled room filling
    obtain ⟨table,offset,segment,emitted,descriptor⟩ := describeIndirectTable_next same described
    refine ⟨⟨segment,emitted,descriptor,?_⟩,?_⟩
    · rw [offset,filled.index]
    · rw [table]
      exact filled.encodes

/-- The request that the device obtains from a head. `memory` holds the tables at the
physical addresses it can be given; the length of a table bounds the walk through it. -/
def deviceRequest (memory : Nat → Nat → VirtioVringDesc) (table : Nat → VirtioVringDesc)
    (fuel head : Nat) : Option (List DeviceSegment) :=
  if (table head).flags &&& VirtioVringDescFlag.indirect = 0 then
    (followNext table fuel head).map (List.map fun i => deviceSegment (table i))
  else
    let entries := memory (table head).physAddress
    (followNext entries ((table head).lengthBytes / sizeofTableEntry) 0).map
      (List.map fun i => deviceSegment (entries i))

theorem Encodes.walked_range (encodes : Encodes table (List.range entries.length) entries)
    (nonempty : entries ≠ []) (enough : entries.length ≤ fuel) :
    followNext table fuel 0 = some (List.range entries.length) := by
  have some := List.length_pos_iff.mpr nonempty
  obtain ⟨tail,range⟩ : ∃ tail, List.range entries.length = 0 :: tail := by
    rw [show entries.length = entries.length - 1 + 1 by omega,List.range_succ_eq_map]
    exact ⟨_,rfl⟩
  have length : (0 :: tail).length = entries.length := by rw [← range,List.length_range]
  rw [range] at encodes ⊢
  exact encodes.walked (by omega)

theorem DirectChain.request (chain : DirectChain n q q' call inflight head descs)
    (memory : Nat → Nat → VirtioVringDesc) :
    deviceRequest memory q'.descriptorTable n head =
      some ((readableSegments q call).map (·.seen false) ++
        (writableSegments q call).map (·.seen true)) := by
  have first : head ∈ descs := by
    have walk := chain.walk
    cases n with
    | zero => simp [followNext] at walk
    | succ n =>
      rw [followNext] at walk
      split at walk
      · simp [← Option.some.inj walk]
      · obtain ⟨rest,_,rfl⟩ := Option.map_eq_some_iff.mp walk
        exact List.mem_cons_self
  have plain : (q'.descriptorTable head).flags &&& VirtioVringDescFlag.indirect = 0 := by
    have seen : deviceSegment (q'.descriptorTable head) ∈
        descs.map fun i => deviceSegment (q'.descriptorTable i) := List.mem_map_of_mem first
    rw [chain.segments] at seen
    have direct : (deviceSegment (q'.descriptorTable head)).indirect = false := by
      rcases List.mem_append.mp seen with member | member
      all_goals
        obtain ⟨segment,_,same⟩ := List.mem_map.mp member
        rw [← same]
        rfl
    simpa [deviceSegment] using direct
  rw [deviceRequest,if_pos plain,chain.walk,Option.map_some,chain.segments]

structure IndirectRequest (memory : Nat → Nat → VirtioVringDesc) (table : Nat → VirtioVringDesc)
    (n head : Nat) (segments : List DeviceSegment) : Prop where
  flags : (table head).flags = VirtioVringDescFlag.indirect
  length : (table head).lengthBytes = 16 * segments.length
  /-- The entries in use are linked in order, and no others can be reached. -/
  linked : ∀ fuel, segments.length ≤ fuel →
    followNext (memory (table head).physAddress) fuel 0 = some (List.range segments.length)
  request : deviceRequest memory table n head = some segments

theorem IndirectChain.request (chain : IndirectChain q' call head entries)
    (honest : call.table.genIOVMSegments.Honest) (nonempty : entries ≠ [])
    (few : entries.length < 65536)
    (mapped : ∀ segment ∈ (call.table.genIOVMSegments.emit 1).segments,
      memory segment.fIOVMAddr = (q'.descriptorBuffers head).indirectDescriptors.entries) (n : Nat) :
    IndirectRequest memory q'.descriptorTable n head (entries.map fun e => e.1.seen e.2) := by
  obtain ⟨segment,emitted,descriptor,offset⟩ := chain.described
  have covered := honest 1
  have size : segment.fLength = entries.length * 16 := by
    rw [offset,emitted] at covered
    simpa [byteCount,sizeofTableEntry] using covered.symm
  have address : memory (q'.descriptorTable head).physAddress =
      (q'.descriptorBuffers head).indirectDescriptors.entries := by
    rw [descriptor]
    exact mapped segment (by simp [emitted])
  have length : (q'.descriptorTable head).lengthBytes = 16 * entries.length := by
    rw [descriptor]
    simp only [tableDescriptor]
    omega
  have linked : ∀ fuel, entries.length ≤ fuel →
      followNext (memory (q'.descriptorTable head).physAddress) fuel 0 =
        some (List.range entries.length) := by
    rw [address]
    exact fun fuel enough => chain.encodes.walked_range nonempty enough
  have flags : (q'.descriptorTable head).flags = VirtioVringDescFlag.indirect := by
    rw [descriptor]
    rfl
  refine ⟨flags,by simpa using length,by simpa using linked,?_⟩
  have bound : (q'.descriptorTable head).lengthBytes / sizeofTableEntry = entries.length := by
    rw [length,sizeofTableEntry]
    omega
  rw [deviceRequest,if_neg (by rw [flags]; decide)]
  dsimp only
  rw [bound,linked _ (Nat.le_refl _),address]
  simp [chain.encodes.seen]

/-- An indirect submission that has moved `head_index` has built its chain. -/
theorem indirect_published (partition : Partition n q free inflight lost)
    (indirect : q.indirectDescriptors = true) (returned : submitBuffers q call = some ret)
    (moved : ret.queue.availableRing.headIndex ≠ q.availableRing.headIndex) :
    ∃ i rest head q', free = i :: rest ∧ buildIndirectChain q call = .next (head, q') ∧
      Agree [i] q q' ∧ ret.queue = virtioVirtqueueAddDescriptorToRing q' head := by
  have mode : buildChain q call = buildIndirectChain q call := by simp [buildChain,indirect]
  have unused := partition.unused
  rcases submitBuffers_cases returned with ⟨head,q',built,_,queue⟩ | left
  · rw [mode] at built
    cases free with
    | nil =>
      rw [buildIndirectChain_empty unused] at built
      cases built
    | cons i rest =>
      have outcome := buildIndirectChain_spec unused call
      rw [built] at outcome
      exact ⟨i,rest,head,q',rfl,built,outcome.2.2.2.2,queue⟩
  · rw [mode] at left
    refine absurd ?_ moved
    cases free with
    | nil =>
      rw [buildIndirectChain_empty unused] at left
      injection left with _ same
      rw [same]
    | cons i rest =>
      have outcome := buildIndirectChain_spec unused call
      rw [left] at outcome
      rw [outcome.1.availableRing]

/-- Both modes show the device the same request. `segments` are the entries that the
request's buffers are emitted as, whichever queue it goes to. -/
theorem indirect_refines_direct
    (n : Nat) (q : VirtioVirtqueue) (free : List Nat) (inflight : List Request) (lost : List Nat)
    (partition : Partition n q free inflight lost) (direct : q.indirectDescriptors = false)
    (n' : Nat) (p : VirtioVirtqueue) (free' : List Nat) (inflight' : List Request)
    (lost' : List Nat) (partition' : Partition n' p free' inflight' lost')
    (indirect : p.indirectDescriptors = true)
    (call : SubmitCall) (readable writable : List Segment64)
    (emitted : readableSegments q call = readable ∧ writableSegments q call = writable)
    (emitted' : indirectReadable (tableSlots p p.firstUnusedDescriptorIndex.toNat) call = readable ∧
      indirectWritable (tableSlots p p.firstUnusedDescriptorIndex.toNat) call = writable)
    (nonempty : 0 < readable.length + writable.length)
    (few : readable.length + writable.length < 65536)
    (ret : SubmitReturn) (returned : submitBuffers q call = some ret)
    (accepted : ret.result = .success)
    (ret' : SubmitReturn) (returned' : submitBuffers p call = some ret')
    (published' : ret'.queue.availableRing.headIndex ≠ p.availableRing.headIndex)
    (honest : call.table.genIOVMSegments.Honest) (memory : Nat → Nat → VirtioVringDesc)
    (mapped : ∀ segment ∈ (call.table.genIOVMSegments.emit 1).segments,
      memory segment.fIOVMAddr =
        (ret'.queue.descriptorBuffers (newSlot p ret'.queue)).indirectDescriptors.entries) :
    ∃ segments, segments = readable.map (·.seen false) ++ writable.map (·.seen true) ∧
      deviceRequest memory ret.queue.descriptorTable n (newSlot q ret.queue) = some segments ∧
      IndirectRequest memory ret'.queue.descriptorTable n' (newSlot p ret'.queue) segments := by
  refine ⟨_,rfl,?_,?_⟩
  · obtain ⟨descs,chain⟩ := directChain_accepted partition direct returned accepted
    rw [chain.request memory,emitted.1,emitted.2]
  · obtain ⟨i,rest,head,q',rfl,built,agree,queue⟩ :=
      indirect_published partition' indirect returned' published'
    have first : p.firstUnusedDescriptorIndex = i := partition'.unused.listed.1
    rw [first,Int.toNat_natCast] at emitted'
    have chain := buildIndirectChain_encodes partition'.unused
      (by rw [emitted'.1,emitted'.2]; exact few) built
    have slot : newSlot p ret'.queue = head := by rw [queue,newSlot_added agree]
    rw [slot] at mapped ⊢
    rw [queue] at mapped ⊢
    have entries : indirectEntries (tableSlots p i) call =
        readable.map (fun s => (s,false)) ++ writable.map fun s => (s,true) := by
      rw [indirectEntries,emitted'.1,emitted'.2]
    rw [entries] at chain
    have some : readable.map (fun s => (s,false)) ++ writable.map (fun s => (s,true)) ≠ [] := by
      intro empty
      have none := congrArg List.length empty
      simp only [List.length_append,List.length_map,List.length_nil] at none
      omega
    have request := chain.request honest some (by simpa using few) mapped n'
    rw [List.map_append,List.map_map,List.map_map] at request
    exact request

def tabledExchange : SubmitCall :=
  { exchange with table := (ScatterList.mk [⟨65536, 48⟩] (by simp)).dma }

theorem indirect_refines_direct_exchange :
    ∃ memory ret ret' segments,
      submitBuffers (initialQueue 4 true false (readyCalls 4 64)) tabledExchange = some ret ∧
      submitBuffers (initialQueue 4 true true (readyCalls 4 64)) tabledExchange = some ret' ∧
      segments = [⟨8192, 512, false, false⟩, ⟨16384, 100, false, false⟩, ⟨4096, 512, true, false⟩] ∧
      deviceRequest memory ret.queue.descriptorTable 4
        (newSlot (initialQueue 4 true false (readyCalls 4 64)) ret.queue) = some segments ∧
      IndirectRequest memory ret'.queue.descriptorTable 4
        (newSlot (initialQueue 4 true true (readyCalls 4 64)) ret'.queue) segments := by
  have first : (submitBuffers (initialQueue 4 true false (readyCalls 4 64)) tabledExchange).map
      SubmitReturn.result = some .success := by decide +kernel
  have second : (submitBuffers (initialQueue 4 true true (readyCalls 4 64)) tabledExchange).map
      (fun ret => ret.queue.availableRing.headIndex) = some 1 := by decide +kernel
  obtain ⟨ret,returned,accepted⟩ := Option.map_eq_some_iff.mp first
  obtain ⟨ret',returned',moved⟩ := Option.map_eq_some_iff.mp second
  obtain ⟨segments,same,seen,request⟩ := indirect_refines_direct
    4 _ _ [] [] (partition_initial (by decide) true false (readyCalls 4 64)) rfl
    4 _ _ [] [] (partition_initial (by decide) true true (readyCalls 4 64)) rfl
    tabledExchange [⟨8192, 512⟩, ⟨16384, 100⟩] [⟨4096, 512⟩]
    ⟨by decide +kernel,by decide +kernel⟩ ⟨by decide +kernel,by decide +kernel⟩
    (by decide) (by decide) ret returned accepted ret' returned'
    (by rw [moved]; decide) (fun _ => rfl) (fun _ => _) (fun _ _ => rfl)
  exact ⟨_,ret,ret',segments,returned,returned',same,seen,request⟩

end VirtioOsx
