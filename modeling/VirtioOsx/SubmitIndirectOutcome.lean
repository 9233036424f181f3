import VirtioOsx.SubmitDirectOutcome
import VirtioOsx.SubmitIndirect

/-! What an indirect submission leaves behind. It reserves one descriptor, writes only to
that descriptor and its table, and either links it as a chain of one or, on the exits
that remember to, returns it. -/
namespace VirtioOsx

structure Quiet (i : Nat) (q q' : VirtioVirtqueue) : Prop where
  agree : Agree [i] q q'
  nextDesc : q'.nextDesc = q.nextDesc
  first : q'.firstUnusedDescriptorIndex = q.firstUnusedDescriptorIndex
  count : q'.numUnusedDescriptors = q.numUnusedDescriptors

theorem Quiet.refl (i : Nat) (q : VirtioVirtqueue) : Quiet i q q := ⟨Agree.refl _ q,rfl,rfl,rfl⟩

theorem Quiet.trans (one : Quiet i q q') (two : Quiet i q' q'') : Quiet i q q'' :=
  ⟨one.agree.trans two.agree,two.nextDesc.trans one.nextDesc,two.first.trans one.first,
    two.count.trans one.count⟩

theorem quiet_modifyBuffer (q : VirtioVirtqueue) (i : Nat) (f)
    (kept : ∀ b, (f b).nextDesc = b.nextDesc) : Quiet i q (q.modifyBuffer i f) :=
  ⟨agree_modifyBuffer q f (by simp),VirtioVirtqueue.modifyBuffer_nextDesc q i f kept,rfl,rfl⟩

theorem Unused.quiet (unused : Unused q free) (quiet : Quiet i q q') : Unused q' free :=
  unused.congr quiet.first quiet.count fun j _ => congrFun quiet.nextDesc j

def outputEntry (index : Nat) (segment : Segment64) (writable : Bool) (buffer : VirtioBuffer) :
    VirtioBuffer :=
  { buffer with indirectDescriptors := { buffer.indirectDescriptors with
      entries := fillVringDescriptor buffer.indirectDescriptors.entries index (int16 index)
        (if index = 0 then none else some (index - 1)) segment writable } }

theorem outputIndirectVringDescSegment_eq (state : IndirectSegmentState) (segment : Segment64) :
    outputIndirectVringDescSegment state segment =
      { state with
        queue := state.queue.modifyBuffer state.descArray
          (outputEntry state.nextDescriptorIndex segment state.writable)
        nextDescriptorIndex := (state.nextDescriptorIndex + 1) % 65536 } := rfl

structure Advanced (count : Nat) (state state' : IndirectSegmentState) : Prop where
  quiet : Quiet state.descArray state.queue state'.queue
  descArray : state'.descArray = state.descArray
  index : state.nextDescriptorIndex < 65536 →
    state'.nextDescriptorIndex = (state.nextDescriptorIndex + count) % 65536

theorem Advanced.refl (state : IndirectSegmentState) : Advanced 0 state state :=
  ⟨Quiet.refl _ _,rfl,fun small => (Nat.mod_eq_of_lt small).symm⟩

theorem advanced_emit (segments : List Segment64) (state : IndirectSegmentState) :
    Advanced segments.length state (segments.foldl outputIndirectVringDescSegment state) := by
  induction segments generalizing state with
  | nil => exact Advanced.refl state
  | cons segment segments ih =>
    have later := ih (outputIndirectVringDescSegment state segment)
    rw [outputIndirectVringDescSegment_eq] at later
    refine ⟨?_,later.descArray,?_⟩
    · exact (quiet_modifyBuffer _ _ (outputEntry _ segment _) fun _ => rfl).trans later.quiet
    · have index := later.index
      simp only [List.foldl_cons,List.length_cons,outputIndirectVringDescSegment_eq] at index ⊢
      intro small
      rw [index (Nat.mod_lt _ (by decide))]
      omega

structure Attaches (attach : Option IOMemoryDescriptor → VirtioBuffer → VirtioBuffer) : Prop where
  nextDesc : ∀ md b, (attach md b).nextDesc = b.nextDesc
  table : ∀ md b, (attach md b).indirectDescriptors = b.indirectDescriptors

theorem attaches_first : Attaches attachFirst := ⟨fun _ _ => rfl,fun _ _ => rfl⟩
theorem attaches_second : Attaches attachSecond := ⟨fun _ _ => rfl,fun _ _ => rfl⟩

def attached (attach : Option IOMemoryDescriptor → VirtioBuffer → VirtioBuffer)
    (buf : IOMemoryDescriptor) (dma : DmaCalls) (output : IndirectSegmentState) :
    IndirectSegmentState :=
  if dma.setMemoryDescriptor = .success then
    { output with queue := output.queue.modifyBuffer output.descArray (attach (some buf)) } else output

theorem advanced_attached (attaches : Attaches attach) (buf : IOMemoryDescriptor) (dma : DmaCalls)
    (output : IndirectSegmentState) : Advanced 0 output (attached attach buf dma output) := by
  unfold attached
  split
  · exact ⟨quiet_modifyBuffer _ _ _ (attaches.nextDesc _),rfl,
      fun small => (Nat.mod_eq_of_lt small).symm⟩
  · exact Advanced.refl output

theorem Advanced.trans (one : Advanced j state state') (two : Advanced k state' state'') :
    Advanced (j + k) state state'' := by
  refine ⟨one.quiet.trans ?_,two.descArray.trans one.descArray,?_⟩
  · rw [← one.descArray]; exact two.quiet
  · intro small
    have first := one.index small
    have second := two.index (by omega)
    omega

theorem Advanced.modify (advanced : Advanced k state state') (f)
    (kept : ∀ b, (f b).nextDesc = b.nextDesc) :
    Advanced k state
      { state' with queue := state'.queue.modifyBuffer state'.descArray f } := by
  refine ⟨advanced.quiet.trans ?_,advanced.descArray,advanced.index⟩
  rw [← advanced.descArray]
  exact quiet_modifyBuffer _ _ f kept

structure Generated (buf : IOMemoryDescriptor) (outcome : GenOutcome) (min max : Nat)
    (output : IndirectSegmentState) (generated : GenerateResult) : Prop where
  advanced : Advanced outcome.segments.length output generated.output
  covers : generated.result = .success → outcome.Covers buf
  min : generated.minDescsRequired = min - 1
  max : generated.result = .success → generated.maxSegments = max - outcome.segments.length

theorem generated_spec (attaches : Attaches attach) (buf : IOMemoryDescriptor) (dma : DmaCalls)
    (min max : Nat) (output : IndirectSegmentState) :
    Generated buf (dma.genIOVMSegments.emit (max - (min - 1))) min max output
      (generateIndirectSegmentDma attach buf dma min max output) := by
  have emitted := (advanced_attached attaches buf dma output).trans
    (advanced_emit (dma.genIOVMSegments.emit (max - (min - 1))).segments
      (attached attach buf dma output))
  rw [Nat.zero_add] at emitted
  have failed := GenOutcome.failure_ne (dma.genIOVMSegments.emit (max - (min - 1)))
  unfold attached at emitted
  unfold generateIndirectSegmentDma
  dsimp only
  split
  · exact ⟨emitted.modify _ (attaches.nextDesc _),fun good => absurd good failed,rfl,
      fun good => absurd good failed⟩
  · rename_i covered
    push Not at covered
    exact ⟨emitted,fun _ => ⟨covered.1,covered.2.2⟩,rfl,fun _ => rfl⟩

structure ReadableGenerated (q : VirtioVirtqueue) (i slots : Nat) (call : SubmitCall)
    (generated : GenerateResult) : Prop where
  advanced : Advanced (indirectReadable slots call).length ⟨q,i,0,false⟩ generated.output
  covers : generated.result = .success →
    ∀ buf, call.readableBuffer = some buf → (readableOutcome slots call).Covers buf
  min : generated.minDescsRequired = if call.writableBuffer.isSome then 1 else 0
  max : generated.result = .success →
    generated.maxSegments = slots - (indirectReadable slots call).length

theorem generateReadable_spec (q : VirtioVirtqueue) (i slots : Nat) (call : SubmitCall) :
    ReadableGenerated q i slots call (generateReadable q i call slots) := by
  unfold generateReadable
  cases given : call.readableBuffer with
  | none =>
    have emitted : indirectReadable slots call = [] := by simp [indirectReadable,given]
    refine ⟨?_,by simp [given],by simp [SubmitCall.minDescsRequired,given],by simp [emitted]⟩
    rw [emitted]
    exact Advanced.refl _
  | some buf =>
    have emitted : indirectReadable slots call = (readableOutcome slots call).segments := by
      simp [indirectReadable,given]
    have generated := generated_spec attaches_first buf call.readable call.minDescsRequired slots
      ⟨q,i,0,false⟩
    refine ⟨by rw [emitted]; exact generated.advanced,?_,?_,?_⟩
    · intro success other same
      obtain rfl : other = buf := by simpa [given] using same.symm
      exact generated.covers success
    · rw [generated.min]
      simp [SubmitCall.minDescsRequired,given]
    · rw [emitted]
      exact generated.max

structure WritableGenerated (slots : Nat) (call : SubmitCall) (output : IndirectSegmentState)
    (generated : GenerateResult) : Prop where
  advanced : Advanced (indirectWritable slots call).length output generated.output
  covers : generated.result = .success →
    ∀ buf, call.writableBuffer = some buf → (writableOutcome slots call).Covers buf

theorem generateWritable_spec (first : ReadableGenerated q i slots call readable)
    (success : readable.result = .success) :
    WritableGenerated slots call readable.output (generateWritable call readable) := by
  unfold generateWritable
  cases given : call.writableBuffer with
  | none =>
    have emitted : indirectWritable slots call = [] := by simp [indirectWritable,given]
    refine ⟨?_,by simp [given]⟩
    rw [emitted]
    exact Advanced.refl _
  | some buf =>
    have limit : readable.maxSegments - (readable.minDescsRequired - 1) =
        slots - (indirectReadable slots call).length := by
      rw [first.max success,first.min]
      simp [given]
    have generated := generated_spec attaches_second buf call.writable readable.minDescsRequired
      readable.maxSegments { readable.output with writable := true }
    rw [limit] at generated
    refine ⟨?_,?_⟩
    · have emitted : indirectWritable slots call = (writableOutcome slots call).segments := by
        simp [indirectWritable,given]
      rw [emitted]
      exact ⟨generated.advanced.quiet,generated.advanced.descArray,generated.advanced.index⟩
    · intro good other same
      obtain rfl : other = buf := by simpa [given] using same.symm
      exact generated.covers good

def FillOutcome (q : VirtioVirtqueue) (i slots : Nat) (call : SubmitCall) (rest : List Nat) :
    Phase IndirectSegmentState → Prop
  | .next output => Quiet i q output.queue ∧
      output.nextDescriptorIndex = indirectCount slots call ∧
      (∀ buf, call.readableBuffer = some buf → (readableOutcome slots call).Covers buf) ∧
      (∀ buf, call.writableBuffer = some buf → (writableOutcome slots call).Covers buf)
  | .returned result q' => result ≠ .success ∧ Unused q' (i :: rest) ∧ Agree [i] q q'
  | .stuck => False

theorem Quiet.giveBack (quiet : Quiet i q q') (unused : Unused q rest) (fresh : i ∉ rest)
    (bound : i < 32768) :
    Unused (returnUnusedDescriptor q' i) (i :: rest) ∧ Agree [i] q (returnUnusedDescriptor q' i) :=
  ⟨(unused.quiet quiet).giveBack fresh bound,
    quiet.agree.trans (agree_returnUnusedDescriptor q' (by simp))⟩

theorem fillIndirectTable_spec (unused : Unused q rest) (fresh : i ∉ rest) (bound : i < 32768)
    (call : SubmitCall) (slots : Nat) :
    FillOutcome q i slots call rest (fillIndirectTable q i call slots) := by
  have first := generateReadable_spec q i slots call
  unfold fillIndirectTable
  dsimp only
  split
  · rename_i failed
    exact ⟨failed,first.advanced.quiet.giveBack unused fresh bound⟩
  rename_i success
  have success : (generateReadable q i call slots).result = .success := by simpa using success
  have second := generateWritable_spec first success
  have both := first.advanced.trans second.advanced
  split
  · rename_i failed
    refine ⟨failed,Quiet.giveBack ?_ unused fresh bound⟩
    split
    · exact both.quiet.trans (quiet_modifyBuffer _ _ (attachFirst none) fun _ => rfl)
    · exact both.quiet
  · rename_i good
    have good : (generateWritable call (generateReadable q i call slots)).result = .success := by
      simpa using good
    refine ⟨both.quiet,?_,first.covers success,second.covers good⟩
    rw [both.index (show 0 < 65536 by decide)]
    simp [indirectCount]

theorem quiet_describe (i : Nat) (segments : List Segment64) (q : VirtioVirtqueue) :
    Quiet i q (segments.foldl (outputVringDescSegmentForIndirectTable i) q) := by
  induction segments generalizing q with
  | nil => exact Quiet.refl i q
  | cons segment segments ih =>
    refine Quiet.trans ?_ (ih _)
    refine ⟨⟨rfl,rfl,rfl,rfl,rfl,rfl,fun _ _ => rfl,fun j apart => ?_⟩,rfl,rfl,rfl⟩
    have different : j ≠ i := by simpa using apart
    simp [outputVringDescSegmentForIndirectTable,fillVringDescriptor,different]

def DescribeOutcome (q : VirtioVirtqueue) (i : Nat) (output : IndirectSegmentState)
    (call : SubmitCall) (rest : List Nat) : Phase (Nat × VirtioVirtqueue) → Prop
  | .next (head, q') => head = i ∧ Unused q' rest ∧ q'.nextDesc i = -1 ∧
      q'.completion i = call.completion ∧ Agree [i] q q'
  | .returned result q' => Unused q' (i :: rest) ∧ Agree [i] q q' ∧
      (result = .success → call.table.setMemoryDescriptor = .success ∧
        (call.table.genIOVMSegments.emit 1).result = .success ∧
        ((call.table.genIOVMSegments.emit 1).segments.length < 1 ∨
          (call.table.genIOVMSegments.emit 1).offset ≠
            output.nextDescriptorIndex * sizeofTableEntry))
  | .stuck => False

theorem describeIndirectTable_spec (unused : Unused q rest) (fresh : i ∉ rest) (bound : i < 32768)
    (quiet : Quiet i q output.queue) (call : SubmitCall) :
    DescribeOutcome q i output call rest (describeIndirectTable output i call) := by
  unfold describeIndirectTable
  dsimp only
  have sized := quiet.trans (quiet_modifyBuffer output.queue i (fun buffer =>
    { buffer with indirectDescriptors := { buffer.indirectDescriptors with
        length := output.nextDescriptorIndex * sizeofTableEntry } }) fun _ => rfl)
  split
  · rename_i failed
    have cleared := sized.trans (quiet_modifyBuffer _ i
      (fun buffer => { buffer with dmaCmd := none, dmaCmd2 := none }) fun _ => rfl)
    obtain ⟨given,agree⟩ := cleared.giveBack unused fresh bound
    exact ⟨given,agree,fun good => absurd good failed⟩
  · rename_i attached
    have described := (sized.trans (quiet_modifyBuffer _ i
      (fun buffer => { buffer with dmaIndirectDescriptors := true }) fun _ => rfl)).trans
        (quiet_describe i (call.table.genIOVMSegments.emit 1).segments _)
    split
    · rename_i short
      have cleared := described.trans (quiet_modifyBuffer _ i (fun buffer =>
        { buffer with dmaIndirectDescriptors := false, dmaCmd := none, dmaCmd2 := none })
          fun _ => rfl)
      obtain ⟨given,agree⟩ := cleared.giveBack unused fresh bound
      refine ⟨given,agree,fun good => ⟨by simpa using attached,good,?_⟩⟩
      exact short.resolve_left fun failed => failed good
    · refine ⟨rfl,?_,?_,?_,described.agree.trans (agree_modifyBuffer _ _ (by simp))⟩
      · refine (unused.quiet described).congr rfl rfl fun j member => ?_
        have different : j ≠ i := fun same => fresh (by rwa [same] at member)
        exact congrArg VirtioBuffer.nextDesc (VirtioVirtqueue.modifyBuffer_other _ _ different)
      · exact congrArg VirtioBuffer.nextDesc (VirtioVirtqueue.modifyBuffer_same _ i _)
      · exact congrArg VirtioBuffer.completion (VirtioVirtqueue.modifyBuffer_same _ i _)

/-- The exits of an indirect submission that finds descriptor `i` first in the unused list.
The two that refuse the request by its segment count keep the descriptor. -/
def IndirectOutcome (q : VirtioVirtqueue) (i : Nat) (call : SubmitCall) (rest : List Nat) :
    Phase (Nat × VirtioVirtqueue) → Prop
  | .next (head, q') => head = i ∧ Unused q' rest ∧ q'.nextDesc i = -1 ∧
      q'.completion i = call.completion ∧ Agree [i] q q'
  | .returned result q' => Agree [i] q q' ∧
      (result ≠ .success ∧ Unused q' rest ∨
        Unused q' (i :: rest) ∧ (result = .success → TableUncovered (tableSlots q i) call))
  | .stuck => False

def tableReserved (q : VirtioVirtqueue) (i : Nat) : VirtioVirtqueue :=
  (reserved q i).modifyBuffer i fun buffer =>
    { buffer with indirectDescriptors := { buffer.indirectDescriptors with
        length := buffer.indirectDescriptors.capacity } }

theorem tableSlots_tableReserved (q : VirtioVirtqueue) (i : Nat) :
    tableSlots (tableReserved q i) i = tableSlots q i := by
  simp [tableSlots,tableReserved,reserved]

theorem buildIndirectChain_eq (unused : Unused q (i :: rest)) (call : SubmitCall) :
    buildIndirectChain q call =
      if call.minDescsRequired > tableSlots q i then .returned .unsupported (tableReserved q i)
      else if call.minDescsRequired = 0 then .returned .badArgument (tableReserved q i)
      else (fillIndirectTable ((tableReserved q i).modifyBuffer i fun buffer =>
          { buffer with dmaCmdUsed := true }) i call (tableSlots q i)).bind
        fun output => describeIndirectTable output i call := by
  rw [← tableSlots_tableReserved q i]
  simp only [buildIndirectChain,reserveNewDescriptor_cons unused]
  rw [if_neg (show ¬(i : Int) < 0 by omega)]
  rfl

def TableOutcome (q : VirtioVirtqueue) (i : Nat) (call : SubmitCall) (rest : List Nat) :
    Phase (Nat × VirtioVirtqueue) → Prop
  | .next (head, q') => head = i ∧ Unused q' rest ∧ q'.nextDesc i = -1 ∧
      q'.completion i = call.completion ∧ Agree [i] q q'
  | .returned result q' => Agree [i] q q' ∧ Unused q' (i :: rest) ∧
      (result = .success → TableUncovered (tableSlots q i) call)
  | .stuck => False

theorem TableOutcome.indirect (outcome : TableOutcome q i call rest phase) :
    IndirectOutcome q i call rest phase := by
  cases phase with
  | stuck => exact outcome
  | next value => exact outcome
  | returned result q' => exact ⟨outcome.1,.inr outcome.2⟩

theorem Unused.tableReserved (unused : Unused q (i :: rest)) : Unused (tableReserved q i) rest :=
  unused.reserve.modifyBuffer _ fun _ => rfl

theorem agree_tableReserved (q : VirtioVirtqueue) (i : Nat) : Agree [i] q (tableReserved q i) :=
  agree_of_reserved q _ (by simp)

/-- The two exits that check the segment count forget the reserved descriptor. -/
theorem buildIndirectChain_refused (unused : Unused q (i :: rest)) (call : SubmitCall)
    (refused : call.minDescsRequired > tableSlots q i ∨ call.minDescsRequired = 0) :
    ∃ result, result ≠ .success ∧
      buildIndirectChain q call = .returned result (tableReserved q i) := by
  rw [buildIndirectChain_eq unused]
  by_cases many : call.minDescsRequired > tableSlots q i
  · exact ⟨.unsupported,by simp,if_pos many⟩
  · rw [if_neg many,if_pos (refused.resolve_left many)]
    exact ⟨.badArgument,by simp,rfl⟩

theorem buildIndirectChain_accepted (unused : Unused q (i :: rest)) (call : SubmitCall)
    (fits : ¬call.minDescsRequired > tableSlots q i) (nonempty : call.minDescsRequired ≠ 0) :
    TableOutcome q i call rest (buildIndirectChain q call) := by
  have bound : i < 32768 := unused.small i List.mem_cons_self
  have fresh : i ∉ rest := (List.nodup_cons.mp unused.nodup).1
  rw [buildIndirectChain_eq unused,if_neg fits,if_neg nonempty]
  have marked := quiet_modifyBuffer (tableReserved q i) i
    (fun buffer => { buffer with dmaCmdUsed := true }) fun _ => rfl
  have free := unused.tableReserved.quiet marked
  have toMarked := (agree_tableReserved q i).trans marked.agree
  have fill := fillIndirectTable_spec free fresh bound call (tableSlots q i)
  revert fill
  cases fillIndirectTable _ i call (tableSlots q i) with
  | stuck => exact fun fill => fill.elim
  | returned result q' =>
    rintro ⟨failed,given,inside⟩
    exact ⟨toMarked.trans inside,given,fun good => absurd good failed⟩
  | next output =>
    rintro ⟨quiet,index,readable,writable⟩
    have describe := describeIndirectTable_spec free fresh bound quiet call
    revert describe
    rw [Phase.bind_next]
    cases describeIndirectTable output i call with
    | stuck => exact id
    | next value =>
      rintro ⟨same,left,linked,stored,inside⟩
      exact ⟨same,left,linked,stored,toMarked.trans inside⟩
    | returned result q' =>
      rintro ⟨given,inside,short⟩
      refine ⟨toMarked.trans inside,given,fun good => ?_⟩
      obtain ⟨attached,generated,uncovered⟩ := short good
      rw [index] at uncovered
      exact ⟨nonempty,by omega,readable,writable,attached,generated,uncovered⟩

theorem buildIndirectChain_spec (unused : Unused q (i :: rest)) (call : SubmitCall) :
    IndirectOutcome q i call rest (buildIndirectChain q call) := by
  by_cases refused : call.minDescsRequired > tableSlots q i ∨ call.minDescsRequired = 0
  · obtain ⟨result,failed,exit⟩ := buildIndirectChain_refused unused call refused
    rw [exit]
    exact ⟨agree_tableReserved q i,.inl ⟨failed,unused.tableReserved⟩⟩
  · obtain ⟨fits,nonempty⟩ := not_or.mp refused
    exact (buildIndirectChain_accepted unused call fits nonempty).indirect

theorem buildIndirectChain_empty (unused : Unused q []) (call : SubmitCall) :
    buildIndirectChain q call = .returned .busy q := by
  simp [buildIndirectChain,reserveNewDescriptor_nil unused]

end VirtioOsx
