import VirtioOsx.SubmitAtomicity
import VirtioOsx.SubmitLoad

/-! Where emission gets its room from. Whatever the DMA commands generate, and whether or not
the submission succeeds, a direct one never finds the unused list exhausted, and an indirect
one writes to no table entry that does not fit its table. -/
namespace VirtioOsx

/-- No exit is stuck, and the queue left on each of them is fine. -/
inductive Phase.Leaves (Fine : VirtioVirtqueue → Prop) (queueOf : α → VirtioVirtqueue) :
    Phase α → Prop where
  | next : Fine (queueOf value) → Leaves Fine queueOf (.next value)
  | returned : Fine queue → Leaves Fine queueOf (.returned result queue)

theorem Phase.Leaves.mono {phase : Phase α} (leaves : phase.Leaves Fine queueOf)
    (weaker : ∀ q, Fine q → Good q) : phase.Leaves Good queueOf := by
  cases leaves with
  | next fine => exact .next (weaker _ fine)
  | returned fine => exact .returned (weaker _ fine)

theorem Phase.Leaves.bind {phase : Phase α} (leaves : phase.Leaves Fine queueOf)
    (rest : α → Phase β)
    (later : ∀ value, Fine (queueOf value) → (rest value).Leaves Fine queueOf') :
    (phase.bind rest).Leaves Fine queueOf' := by
  cases leaves with
  | next fine => exact later _ fine
  | returned fine => exact .returned fine

/-- A rollback that starts on a descriptor which has not been linked walks the unused list
once more, to its end. -/
theorem buildDirectChain_unlinked (unused : Unused q free) (fits : free.length ≤ q.numEntries)
    (unlinked : HeadUnlinked q call) : (buildDirectChain q call).Leaves (Agree free q) Prod.snd := by
  unfold buildDirectChain
  split
  · exact .returned (Agree.refl free q)
  split
  · exact .returned (Agree.refl free q)
  split
  · exact .returned (Agree.refl free q)
  obtain ⟨several,unlinked⟩ := unlinked
  obtain ⟨i,rest,rfl⟩ := unused.exists_cons (by omega)
  cases readable : call.readableBuffer with
  | some buf =>
    simp only [readable,readableSegments] at unlinked
    obtain ⟨result,f,_,kept,exit⟩ := submitDeviceReadable_unlinked unused buf call.completion
      call.readable call.minDescsRequired unlinked.1 unlinked.2
    obtain ⟨q',released,_,agree⟩ := rollback_overcounts neutral_skip unused f kept fits
    dsimp only
    rw [exit,rollback_bind,rollback_eq released]
    exact .returned agree
  | none =>
    cases writable : call.writableBuffer with
    | none => simp [readable,writable] at unlinked
    | some buf =>
      have none : (readableSegments q call).length = 0 := by simp [readableSegments,readable]
      simp only [readable,writable,writableSegments,none,Nat.sub_zero] at unlinked
      have unset : ([] : List Nat).head?.getD uint16Max = uint16Max := rfl
      obtain ⟨result,f,_,kept,exit⟩ := submitDeviceWritable_unlinked (building_nothing unused) rfl
        unset buf call.completion call.writable unlinked
      obtain ⟨q',released,_,agree⟩ := rollback_overcounts neutral_clearDma unused f kept fits
      have start : chainStart ([] ++ [i]) = i := rfl
      rw [start] at exit
      dsimp only
      rw [Phase.bind_next]
      dsimp only
      rw [exit,rollback_bind,rollback_eq released]
      exact .returned agree

theorem buildDirectChain_leaves (unused : Unused q free) (fits : free.length ≤ q.numEntries)
    (call : SubmitCall) : (buildDirectChain q call).Leaves (Agree free q) Prod.snd := by
  by_cases unlinked : HeadUnlinked q call
  · exact buildDirectChain_unlinked unused fits unlinked
  have outcome := buildDirectChain_spec unused fits unlinked
  revert outcome
  cases buildDirectChain q call with
  | stuck => exact False.elim
  | returned result q' =>
    rintro ⟨_,_,_,_,_,agree⟩
    exact .returned agree
  | next value =>
    rintro ⟨descs,rest,rfl,built⟩
    exact .next (built.agree.mono (List.subset_append_left descs rest))

def TakenFrom (free : List Nat) (index : Int) : Prop := 0 ≤ index ∧ index.toNat ∈ free

theorem takenFrom_cast {i : Nat} (member : i ∈ free) : TakenFrom free i :=
  ⟨Int.natCast_nonneg i,member⟩

/-- The output function is called for every one of the segments, and what it claims is one of
`free` each time. With the chain that this gives, the half goes on to `finish`. -/
structure Walks (free : List Nat) (chain : VringDescChain) (segments : List Segment64)
    (finish : VringDescChain → Phase α) (half : Phase α) : Prop where
  claims : ∀ k < segments.length, ∃ before, emitSegments chain (segments.take k) = some before ∧
    TakenFrom free (claimDescriptor before).1
  ends : ∃ last, emitSegments chain segments = some last ∧ half = finish last

/-- A walk over no more segments than there are descriptors pending. -/
theorem Building.claims (building : Building base chain pending descs entries)
    (segments : List Segment64) (room : segments.length ≤ pending.length)
    (inside : k < segments.length) :
    ∃ before, emitSegments chain (segments.take k) = some before ∧
      TakenFrom pending (claimDescriptor before).1 := by
  have count : (segments.take k).length = k := by
    rw [List.length_take]
    omega
  obtain ⟨before,emitted,grown,_⟩ := emitSegments_spec building (segments.take k) (by omega)
  rw [count,List.drop_eq_getElem_cons (by omega)] at grown
  obtain ⟨queue,claimed,_⟩ := claimDescriptor_spec grown.awaiting
  refine ⟨before,emitted,?_⟩
  rw [claimed]
  exact takenFrom_cast (List.getElem_mem _)

def readableChain (queue : VirtioVirtqueue) (buf : IOMemoryDescriptor)
    (completion : VirtioCompletion) : VringDescChain :=
  let (descriptorIndex, queue) := reserveNewDescriptor queue
  let queue := queue.modifyBuffer descriptorIndex.toNat fun buffer =>
    { buffer with completion := completion, dmaCmdUsed := true, dmaCmd := some buf }
  ⟨queue, uint16 descriptorIndex, uint16Max, false⟩

def finishReadable (buf : IOMemoryDescriptor) (outcome : GenOutcome) (descriptorIndex : Int)
    (chain : VringDescChain) : Phase (Nat × VringDescChain) :=
  if outcome.incomplete buf then
    let queue := chain.queue.modifyBuffer descriptorIndex.toNat fun buffer =>
      { buffer with dmaCmd := none, dmaCmdUsed := false }
    rollback (fun _ queue => queue) outcome.failure descriptorIndex queue
  else .next (uint16 descriptorIndex, chain)

def writableChain (firstDescriptorIndex : Nat) (chain : VringDescChain) (buf : IOMemoryDescriptor)
    (completion : VirtioCompletion) : VringDescChain :=
  let (descriptorIndex, queue) := reserveNewDescriptor chain.queue
  let queue := queue.modifyBuffer descriptorIndex.toNat
    (attachWritable (firstDescriptorIndex == uint16Max) completion buf)
  ⟨queue, uint16 descriptorIndex, chain.currentLastDescriptorIndex, true⟩

def finishWritable (firstDescriptorIndex : Nat) (buf : IOMemoryDescriptor) (outcome : GenOutcome)
    (descriptorIndex : Int) (chain : VringDescChain) : Phase (Nat × VringDescChain) :=
  let firstDescriptorIndex := if firstDescriptorIndex = uint16Max then uint16 descriptorIndex
    else firstDescriptorIndex
  if outcome.incomplete buf then
    let queue := chain.queue.modifyBuffer descriptorIndex.toNat fun buffer =>
      { buffer with dmaCmd := none, dmaCmdUsed := false }
    rollback clearDma outcome.failure (int16 firstDescriptorIndex) queue
  else .next (firstDescriptorIndex, chain)

/-- The readable half reserves an unused descriptor and claims others as it walks. -/
theorem submitDeviceReadable_walks (unused : Unused q (i :: free)) (buf : IOMemoryDescriptor)
    (completion : VirtioCompletion) (dma : DmaCalls) (others : Nat)
    (gen : dma.genIOVMSegments.emit (q.numUnusedDescriptors - (others - 1)) = outcome)
    (attached : dma.setMemoryDescriptor = .success) :
    Walks (i :: free) (readableChain q buf completion) outcome.segments
      (finishReadable buf outcome (reserveNewDescriptor q).1)
      (submitDeviceReadable q buf completion dma others) := by
  have index : ¬(i : Int) < 0 := by omega
  have count := unused.count
  have room := dma.genIOVMSegments.bounded (q.numUnusedDescriptors - (others - 1))
  rw [gen] at room
  have building := building_readable unused buf completion
  have chain : readableChain q buf completion =
      ⟨readablePrepared q i buf completion,uint16 i,uint16Max,false⟩ := by
    simp only [readableChain,reserveNewDescriptor_cons unused,Int.toNat_natCast]
    rfl
  rw [← chain] at building
  obtain ⟨last,emitted,_,_⟩ := emitSegments_spec building outcome.segments (by omega)
  refine ⟨fun k inside => building.claims outcome.segments (by omega) inside,last,emitted,?_⟩
  simp only [submitDeviceReadable,finishReadable,reserveNewDescriptor_cons unused,if_neg index,
    Int.toNat_natCast,if_neg (not_not.mpr attached),VirtioVirtqueue.modifyBuffer_modifyBuffer,gen]
  rw [chain] at emitted
  unfold readablePrepared at emitted
  rw [emitted]

theorem submitDeviceWritable_walks (building : Building base chain (j :: rest) descs entries)
    (clear : chain.reservedDescriptorIndex = uint16Max)
    (first : descs.head?.getD uint16Max = firstDescriptorIndex) (buf : IOMemoryDescriptor)
    (completion : VirtioCompletion) (dma : DmaCalls)
    (gen : dma.genIOVMSegments.emit chain.queue.numUnusedDescriptors = outcome)
    (attached : dma.setMemoryDescriptor = .success) :
    Walks (j :: rest) (writableChain firstDescriptorIndex chain buf completion) outcome.segments
      (finishWritable firstDescriptorIndex buf outcome (reserveNewDescriptor chain.queue).1)
      (submitDeviceWritable firstDescriptorIndex chain buf completion dma) := by
  have index : ¬(j : Int) < 0 := by omega
  have unused := building.unused clear
  have count := unused.count
  have room := dma.genIOVMSegments.bounded chain.queue.numUnusedDescriptors
  rw [gen] at room
  have unset : (firstDescriptorIndex == uint16Max) = descs.isEmpty := by
    rw [Bool.eq_iff_iff,beq_iff_eq]
    exact building.first_unset first
  have grown := building_writable building clear descs.isEmpty completion buf
  have start : writableChain firstDescriptorIndex chain buf completion =
      ⟨(reserved chain.queue j).modifyBuffer j (attachWritable descs.isEmpty completion buf),
        uint16 j,chain.currentLastDescriptorIndex,true⟩ := by
    simp only [writableChain,reserveNewDescriptor_cons unused,Int.toNat_natCast,unset]
  rw [← start] at grown
  obtain ⟨last,emitted,_,_⟩ := emitSegments_spec grown outcome.segments (by omega)
  refine ⟨fun k inside => grown.claims outcome.segments (by omega) inside,last,emitted,?_⟩
  have fresh := building.first_unset first
  simp only [submitDeviceWritable,finishWritable,reserveNewDescriptor_cons unused,if_neg index,
    Int.toNat_natCast,fresh,attach_composed,if_neg (not_not.mpr attached),
    VirtioVirtqueue.modifyBuffer_modifyBuffer,gen]
  rw [start] at emitted
  unfold attachWritable at emitted
  rw [emitted]

/-- A readable half that goes on has linked a prefix of the unused list, whatever becomes of
the submission. -/
theorem submitDeviceReadable_continues (unused : Unused q (i :: free))
    (fits : (i :: free).length ≤ q.numEntries)
    (continues : submitDeviceReadable q buf completion dma others = .next (first, chain)) :
    ReadableOutcome q buf completion
      (dma.genIOVMSegments.emit (q.numUnusedDescriptors - (others - 1))).segments i free
      (.next (first, chain)) := by
  have attached : dma.setMemoryDescriptor = .success := by
    by_contra failed
    obtain ⟨q',exit,_,_⟩ := submitDeviceReadable_unattached unused buf completion dma others failed
    rw [exit] at continues
    cases continues
  have emitted : (dma.genIOVMSegments.emit (q.numUnusedDescriptors - (others - 1))).segments ≠ [] := by
    intro empty
    have failed := submitDeviceReadable_failed q buf completion dma others empty
    rw [continues] at failed
    exact failed
  have outcome := submitDeviceReadable_spec unused fits buf completion dma others
    fun _ empty => absurd empty emitted
  rwa [continues] at outcome

theorem Walks.mono (walks : Walks pending chain segments finish half) (within : pending ⊆ free) :
    Walks free chain segments finish half where
  claims k inside := by
    obtain ⟨before,emitted,taken⟩ := walks.claims k inside
    exact ⟨before,emitted,taken.1,within taken.2⟩
  ends := walks.ends

def readableHalf (queue : VirtioVirtqueue) (call : SubmitCall) : Phase (Nat × VringDescChain) :=
  match call.readableBuffer with
  | some buf => submitDeviceReadable queue buf call.completion call.readable call.minDescsRequired
  | none => .next (uint16Max, ⟨queue, uint16Max, uint16Max, false⟩)

/-- The readable half leaves a descriptor for the writable one, also where its own budget is
used up. -/
theorem readableHalf_leaves {call : SubmitCall} (unused : Unused q free)
    (fits : free.length ≤ q.numEntries) (enough : call.minDescsRequired ≤ q.numUnusedDescriptors)
    (writable : call.writableBuffer = some buf)
    (continues : readableHalf q call = .next (first, chain)) :
    ∃ base descs entries j rest, Building base chain (j :: rest) descs entries ∧
      chain.reservedDescriptorIndex = uint16Max ∧ descs.head?.getD uint16Max = first ∧
      j :: rest ⊆ free := by
  have required : 0 < call.minDescsRequired := by
    simp only [SubmitCall.minDescsRequired,writable,Option.isSome_some,if_true]
    omega
  obtain ⟨i,left,rfl⟩ := unused.exists_cons (by omega)
  unfold readableHalf at continues
  cases readable : call.readableBuffer with
  | none =>
    rw [readable] at continues
    obtain ⟨rfl,rfl⟩ := Prod.mk.inj (Phase.next.inj continues)
    exact ⟨q,[],[],i,left,building_nothing unused,rfl,rfl,List.Subset.refl _⟩
  | some readableBuf =>
    rw [readable] at continues
    obtain ⟨rfl,some,clear,building⟩ := submitDeviceReadable_continues unused fits continues
    obtain ⟨j,rest,pending⟩ := readable_leaves unused readable writable enough
    rw [← readableWalk,← readableSegments_walk readable] at building some
    rw [pending] at building
    refine ⟨_,_,_,j,rest,building,clear,head_of_readable some,?_⟩
    rw [← pending]
    exact List.drop_subset _ _

/-- Every call of `reserveNewDescriptor` in the two halves, the first one of each and those of
the output function, gives an unused descriptor. -/
structure HalvesWalk (free : List Nat) (q : VirtioVirtqueue) (call : SubmitCall) : Prop where
  readable : ∀ buf, call.readableBuffer = some buf →
    TakenFrom free (reserveNewDescriptor q).1 ∧
    (call.readable.setMemoryDescriptor = .success →
      Walks free (readableChain q buf call.completion) (readableWalk q call).segments
        (finishReadable buf (readableWalk q call) (reserveNewDescriptor q).1)
        (submitDeviceReadable q buf call.completion call.readable call.minDescsRequired))
  writable : ∀ buf first chain, call.writableBuffer = some buf →
    readableHalf q call = .next (first, chain) →
    0 < chain.queue.numUnusedDescriptors ∧
    TakenFrom free (reserveNewDescriptor chain.queue).1 ∧
    ∀ outcome, call.writable.genIOVMSegments.emit chain.queue.numUnusedDescriptors = outcome →
      call.writable.setMemoryDescriptor = .success →
      Walks free (writableChain first chain buf call.completion) outcome.segments
        (finishWritable first buf outcome (reserveNewDescriptor chain.queue).1)
        (submitDeviceWritable first chain buf call.completion call.writable)

theorem halvesWalk (unused : Unused q free) (fits : free.length ≤ q.numEntries)
    (required : 0 < call.minDescsRequired)
    (enough : call.minDescsRequired ≤ q.numUnusedDescriptors) : HalvesWalk free q call where
  readable buf readable := by
    obtain ⟨i,rest,rfl⟩ := unused.exists_cons (by omega)
    refine ⟨?_,submitDeviceReadable_walks unused buf _ _ _ rfl⟩
    rw [reserveNewDescriptor_cons unused]
    exact takenFrom_cast List.mem_cons_self
  writable buf first chain writable continues := by
    obtain ⟨base,descs,entries,j,rest,building,clear,start,within⟩ :=
      readableHalf_leaves unused fits enough writable continues
    have pending := building.unused clear
    refine ⟨by rw [pending.count]; exact Nat.succ_pos _,?_,fun outcome gen attached => ?_⟩
    · rw [reserveNewDescriptor_cons pending]
      exact takenFrom_cast (within List.mem_cons_self)
    · exact (submitDeviceWritable_walks building clear start buf _ _ gen attached).mono within

/-- Every table keeps its capacity, and of the entries only those of descriptor `i` that lie
below `slots` may change. -/
structure TablesKept (i slots : Nat) (q q' : VirtioVirtqueue) : Prop where
  capacity : ∀ j, (q'.descriptorBuffers j).indirectDescriptors.capacity =
    (q.descriptorBuffers j).indirectDescriptors.capacity
  entries : ∀ j index, j ≠ i ∨ slots ≤ index →
    (q'.descriptorBuffers j).indirectDescriptors.entries index =
      (q.descriptorBuffers j).indirectDescriptors.entries index

theorem TablesKept.refl (i slots : Nat) (q : VirtioVirtqueue) : TablesKept i slots q q :=
  ⟨fun _ => rfl,fun _ _ _ => rfl⟩

theorem TablesKept.trans (one : TablesKept i slots q q') (two : TablesKept i slots q' q'') :
    TablesKept i slots q q'' where
  capacity j := (two.capacity j).trans (one.capacity j)
  entries j index outside := (two.entries j index outside).trans (one.entries j index outside)

theorem TablesKept.mono (kept : TablesKept i few q q') (fewer : few ≤ slots) :
    TablesKept i slots q q' :=
  { kept with
    entries := fun j index outside => kept.entries j index (outside.imp id (Nat.le_trans fewer)) }

theorem tablesKept_modify (q : VirtioVirtqueue) (i slots : Nat) (f)
    (capacity : ∀ b, (f b).indirectDescriptors.capacity = b.indirectDescriptors.capacity)
    (entries : ∀ b index, slots ≤ index →
      (f b).indirectDescriptors.entries index = b.indirectDescriptors.entries index) :
    TablesKept i slots q (q.modifyBuffer i f) := by
  refine ⟨fun j => ?_,fun j index outside => ?_⟩
  all_goals by_cases same : j = i
  · subst same; rw [VirtioVirtqueue.modifyBuffer_same,capacity]
  · rw [VirtioVirtqueue.modifyBuffer_other q f same]
  · subst same
    rw [VirtioVirtqueue.modifyBuffer_same,entries _ index (outside.resolve_left (not_not.mpr rfl))]
  · rw [VirtioVirtqueue.modifyBuffer_other q f same]

theorem tablesKept_modifyBuffer (q : VirtioVirtqueue) (i slots : Nat) (f)
    (kept : ∀ b, (f b).indirectDescriptors = b.indirectDescriptors) :
    TablesKept i slots q (q.modifyBuffer i f) :=
  tablesKept_modify q i slots f (fun b => by rw [kept]) fun b _ _ => by rw [kept]

theorem tablesKept_length (q : VirtioVirtqueue) (i slots : Nat)
    (length : VirtioBuffer → Nat) :
    TablesKept i slots q (q.modifyBuffer i fun buffer =>
      { buffer with indirectDescriptors := { buffer.indirectDescriptors with
          length := length buffer } }) :=
  tablesKept_modify q i slots _ (fun _ => rfl) fun _ _ _ => rfl

theorem tablesKept_returnUnused (q : VirtioVirtqueue) (i slots : Nat) :
    TablesKept i slots q (returnUnusedDescriptor q i) := by
  have linked := tablesKept_modifyBuffer q i slots
    (fun buffer => { buffer with nextDesc := q.firstUnusedDescriptorIndex }) fun _ => rfl
  exact ⟨linked.capacity,linked.entries⟩

/-- The output function fills the next entry, and links the one before it. -/
theorem tablesKept_output (state : IndirectSegmentState) (segment : Segment64)
    (below : state.nextDescriptorIndex < slots) :
    TablesKept state.descArray slots state.queue
      (outputIndirectVringDescSegment state segment).queue := by
  refine tablesKept_modify state.queue state.descArray slots
    (outputEntry state.nextDescriptorIndex segment state.writable) (fun _ => rfl) ?_
  intro b index outside
  refine fillVringDescriptor_other _ _ _ _ _ _ (by omega) ?_
  split
  · simp
  · simp only [ne_eq,Option.some.injEq]
    omega

/-- The emission goes on from entry to entry; where the index wraps it starts again from the
first. -/
theorem tablesKept_emit (slots : Nat) (segments : List Segment64) (state : IndirectSegmentState)
    (small : state.nextDescriptorIndex ≤ start) (room : start + segments.length ≤ slots) :
    TablesKept state.descArray slots state.queue
      (segments.foldl outputIndirectVringDescSegment state).queue := by
  induction segments generalizing state start with
  | nil => exact TablesKept.refl _ _ _
  | cons segment rest ih =>
    rw [List.length_cons] at room
    have next : (outputIndirectVringDescSegment state segment).nextDescriptorIndex ≤ start + 1 :=
      Nat.le_trans (Nat.mod_le _ _) (Nat.succ_le_succ small)
    exact (tablesKept_output state segment (by omega)).trans (ih _ next (by omega))

theorem tablesKept_describe (i slots : Nat) (segments : List Segment64) (q : VirtioVirtqueue) :
    TablesKept i slots q (segments.foldl (outputVringDescSegmentForIndirectTable i) q) := by
  induction segments generalizing q with
  | nil => exact TablesKept.refl _ _ _
  | cons segment rest ih =>
    have later := ih (outputVringDescSegmentForIndirectTable i q segment)
    exact ⟨later.capacity,later.entries⟩

theorem generateIndirectSegmentDma_tables (slots : Nat) (attaches : Attaches attach)
    (buf : IOMemoryDescriptor) (dma : DmaCalls) (min max : Nat) (output : IndirectSegmentState)
    (small : output.nextDescriptorIndex ≤ start) (room : start + (max - (min - 1)) ≤ slots) :
    TablesKept output.descArray slots output.queue
      (generateIndirectSegmentDma attach buf dma min max output).output.queue := by
  have bounded := dma.genIOVMSegments.bounded (max - (min - 1))
  have first : TablesKept output.descArray slots output.queue
      (attached attach buf dma output).queue := by
    unfold attached
    split
    · exact tablesKept_modifyBuffer _ _ _ _ (attaches.table (some buf))
    · exact TablesKept.refl _ _ _
  have same : (attached attach buf dma output).descArray = output.descArray ∧
      (attached attach buf dma output).nextDescriptorIndex = output.nextDescriptorIndex := by
    unfold attached
    split
    · exact ⟨rfl,rfl⟩
    · exact ⟨rfl,rfl⟩
  have walked := tablesKept_emit slots
    (dma.genIOVMSegments.emit (max - (min - 1))).segments (attached attach buf dma output)
    (same.2.trans_le small) (by omega)
  have array := (advanced_emit (dma.genIOVMSegments.emit (max - (min - 1))).segments
    (attached attach buf dma output)).descArray
  rw [same.1] at walked array
  have emitted := first.trans walked
  unfold attached at emitted array
  unfold generateIndirectSegmentDma
  dsimp only
  split
  · rw [array]
    exact emitted.trans (tablesKept_modifyBuffer _ _ _ _ (attaches.table none))
  · exact emitted

theorem indirectReadable_length (slots : Nat) (call : SubmitCall) :
    (indirectReadable slots call).length ≤ slots := by
  have bounded := call.readable.genIOVMSegments.bounded (slots - (call.minDescsRequired - 1))
  unfold indirectReadable readableOutcome
  split
  · omega
  · exact Nat.zero_le slots

theorem generateReadable_tables (q : VirtioVirtqueue) (i slots : Nat) (call : SubmitCall) :
    TablesKept i slots q (generateReadable q i call slots).output.queue := by
  unfold generateReadable
  cases call.readableBuffer with
  | none => exact TablesKept.refl i slots q
  | some buf =>
    exact generateIndirectSegmentDma_tables slots attaches_first buf call.readable _ _ ⟨q,i,0,false⟩
      (Nat.le_refl 0) (by omega)

/-- The second half goes on where the first one has stopped, and its limit is what the first
one has left of the table. -/
theorem generateWritable_tables (first : ReadableGenerated q i slots call readable)
    (success : readable.result = .success) :
    TablesKept i slots readable.output.queue (generateWritable call readable).output.queue := by
  have used := indirectReadable_length slots call
  have left := first.max success
  have next : readable.output.nextDescriptorIndex ≤ (indirectReadable slots call).length := by
    rw [first.advanced.index (show 0 < 65536 by decide),Nat.zero_add]
    exact Nat.mod_le _ _
  unfold generateWritable
  cases call.writableBuffer with
  | none => exact TablesKept.refl i slots _
  | some buf =>
    have kept := generateIndirectSegmentDma_tables slots attaches_second buf
      call.writable readable.minDescsRequired readable.maxSegments
      { readable.output with writable := true } next (by omega)
    have array : readable.output.descArray = i := first.advanced.descArray
    rwa [array] at kept

theorem fillIndirectTable_tables (q : VirtioVirtqueue) (i slots : Nat) (call : SubmitCall) :
    (fillIndirectTable q i call slots).Leaves (TablesKept i slots q) IndirectSegmentState.queue := by
  have readable := generateReadable_tables q i slots call
  unfold fillIndirectTable
  dsimp only
  split
  · exact .returned (readable.trans (tablesKept_returnUnused _ i slots))
  rename_i success
  have both := readable.trans (generateWritable_tables (generateReadable_spec q i slots call)
    (not_not.mp success))
  split
  · refine .returned (TablesKept.trans ?_ (tablesKept_returnUnused _ i slots))
    split
    · exact both.trans (tablesKept_modifyBuffer _ i slots (attachFirst none) fun _ => rfl)
    · exact both
  · exact .next both

theorem describeIndirectTable_tables (output : IndirectSegmentState) (i slots : Nat)
    (call : SubmitCall) :
    (describeIndirectTable output i call).Leaves (TablesKept i slots output.queue) Prod.snd := by
  have sized := tablesKept_length output.queue i slots fun _ =>
    output.nextDescriptorIndex * sizeofTableEntry
  unfold describeIndirectTable
  dsimp only
  split
  · have cleared := sized.trans (tablesKept_modifyBuffer _ i slots
      (fun buffer => { buffer with dmaCmd := none, dmaCmd2 := none }) fun _ => rfl)
    exact .returned (cleared.trans (tablesKept_returnUnused _ i slots))
  have described := (sized.trans (tablesKept_modifyBuffer _ i slots
    (fun buffer => { buffer with dmaIndirectDescriptors := true }) fun _ => rfl)).trans
      (tablesKept_describe i slots (call.table.genIOVMSegments.emit 1).segments _)
  split
  · have cleared := described.trans (tablesKept_modifyBuffer _ i slots (fun buffer =>
      { buffer with dmaIndirectDescriptors := false, dmaCmd := none, dmaCmd2 := none }) fun _ => rfl)
    exact .returned (cleared.trans (tablesKept_returnUnused _ i slots))
  · exact .next (described.trans (tablesKept_modifyBuffer _ i slots (fun buffer =>
      { buffer with completion := call.completion, nextDesc := -1 }) fun _ => rfl))

/-- An indirect submission writes to the table of the first unused descriptor, and only below
the number of entries it counts on. -/
theorem buildIndirectChain_tables (unused : Unused q free) (call : SubmitCall) :
    (buildIndirectChain q call).Leaves (TablesKept q.firstUnusedDescriptorIndex.toNat
      (tableSlots q q.firstUnusedDescriptorIndex.toNat) q) Prod.snd := by
  cases free with
  | nil =>
    rw [buildIndirectChain_empty unused]
    exact .returned (TablesKept.refl _ _ q)
  | cons i rest =>
    have first : q.firstUnusedDescriptorIndex = i := unused.listed.1
    rw [first,Int.toNat_natCast,buildIndirectChain_eq unused]
    have reserved : TablesKept i (tableSlots q i) q (tableReserved q i) := by
      have sized := tablesKept_length q i (tableSlots q i) fun buffer =>
        buffer.indirectDescriptors.capacity
      exact ⟨sized.capacity,sized.entries⟩
    split
    · exact .returned reserved
    split
    · exact .returned reserved
    have marked := reserved.trans (tablesKept_modifyBuffer _ i (tableSlots q i)
      (fun buffer => { buffer with dmaCmdUsed := true }) fun _ => rfl)
    have filled := fillIndirectTable_tables ((tableReserved q i).modifyBuffer i fun buffer =>
      { buffer with dmaCmdUsed := true }) i (tableSlots q i) call
    exact (filled.mono fun _ => marked.trans).bind _ fun output kept =>
      (describeIndirectTable_tables output i (tableSlots q i) call).mono fun _ => kept.trans

/-- Emission never runs out of room, whatever the DMA commands generate and whether or not the
submission succeeds. A direct one reserves unused descriptors only, its readable half leaves
one for the writable half, and an indirect one stays inside its table. -/
theorem emission_has_room (n : Nat) (q : VirtioVirtqueue) (free : List Nat)
    (inflight : List Request) (lost : List Nat) (partition : Partition n q free inflight lost)
    (call : SubmitCall) :
    (buildDirectChain q call).Leaves (Agree free q) Prod.snd ∧
    (0 < call.minDescsRequired → call.minDescsRequired ≤ q.numUnusedDescriptors →
      HalvesWalk free q call) ∧
    (buildIndirectChain q call).Leaves (TablesKept q.firstUnusedDescriptorIndex.toNat
      ((q.descriptorBuffers q.firstUnusedDescriptorIndex.toNat).indirectDescriptors.capacity /
        sizeofTableEntry) q) Prod.snd := by
  have fits : free.length ≤ q.numEntries := partition.size ▸ partition.fits
  exact ⟨buildDirectChain_leaves partition.unused fits call,halvesWalk partition.unused fits,
    (buildIndirectChain_tables partition.unused call).mono fun _ kept =>
      kept.mono (Nat.mod_le _ _)⟩

def threeEachWay : SubmitCall :=
  ⟨some ⟨1, 1536⟩, some ⟨2, 1536⟩, ⟨1, 2, 3⟩, threeSectors.dma, threeSectors.dma, sector.dma⟩

/-- What a call that has been run shows of an early exit. -/
theorem returned_of_run (q : VirtioVirtqueue) (call : SubmitCall) (read : VirtioVirtqueue → Nat)
    (value : Nat) (ran : (submitBuffers q call).map (fun ret => (ret.result, read ret.queue)) =
      some (.internalError, value)) :
    ∃ q', buildChain q call = .returned .internalError q' ∧ read q' = value := by
  obtain ⟨ret,submitted,shape⟩ := Option.map_eq_some_iff.mp ran
  obtain ⟨failed,rfl⟩ := Prod.mk.inj shape
  rcases submitBuffers_cases submitted with ⟨_,_,_,success,_⟩ | left
  · rw [failed] at success
    cases success
  · exact ⟨ret.queue,failed ▸ left,rfl⟩

/-- With four descriptors, or a table of four entries, the budget is used up exactly: the last
one is written, and then the submission fails. -/
theorem emission_has_room_three_each_way :
    (∃ q', buildDirectChain (initialQueue 4 true false (readyCalls 4 64)) threeEachWay =
        .returned .internalError q' ∧
      (q'.descriptorTable 3).lengthBytes = 512 ∧
      Agree (List.range 4) (initialQueue 4 true false (readyCalls 4 64)) q') ∧
    HalvesWalk (List.range 4) (initialQueue 4 true false (readyCalls 4 64)) threeEachWay ∧
    ∃ q', buildIndirectChain (initialQueue 4 true true (readyCalls 4 64)) threeEachWay =
        .returned .internalError q' ∧
      ((q'.descriptorBuffers 0).indirectDescriptors.entries 3).lengthBytes = 512 ∧
      TablesKept 0 4 (initialQueue 4 true true (readyCalls 4 64)) q' := by
  have direct := partition_initial (n := 4) (by decide) true false (readyCalls 4 64)
  have indirect := partition_initial (n := 4) (by decide) true true (readyCalls 4 64)
  obtain ⟨q',left,last⟩ := returned_of_run (initialQueue 4 true false (readyCalls 4 64))
    threeEachWay (fun q => (q.descriptorTable 3).lengthBytes) 512 (by decide +kernel)
  obtain ⟨q'',left',last'⟩ := returned_of_run (initialQueue 4 true true (readyCalls 4 64))
    threeEachWay (fun q => ((q.descriptorBuffers 0).indirectDescriptors.entries 3).lengthBytes) 512
    (by decide +kernel)
  rw [buildChain_direct rfl] at left
  rw [buildChain_indirect rfl] at left'
  have room := emission_has_room 4 _ _ [] [] direct threeEachWay
  have kept := (emission_has_room 4 _ _ [] [] indirect threeEachWay).2.2
  rw [left] at room
  rw [left'] at kept
  cases room.1 with
  | returned touched =>
    cases kept with
    | returned written =>
      exact ⟨⟨q',left,last,touched⟩,room.2.1 (by decide) (by decide),q'',left',last',written⟩

end VirtioOsx
