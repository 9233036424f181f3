import Mathlib.Data.List.Forall2
import VirtioOsx.QueueMachine

/-! The DMA commands of a queue with direct descriptors: what each function of the driver
does to a command's attachment and to the flag that is meant to record it. -/
namespace VirtioOsx

/-- `dma_cmd_used` of a descriptor, and what is attached to its command. -/
def VirtioVirtqueue.dma (q : VirtioVirtqueue) (i : Nat) : Bool × Option IOMemoryDescriptor :=
  ((q.descriptorBuffers i).dmaCmdUsed, (q.descriptorBuffers i).dmaCmd)

theorem Agree.dma (agree : Agree touched q q') (apart : i ∉ touched) : q'.dma i = q.dma i := by
  simp only [VirtioVirtqueue.dma,agree.buffers i apart]

theorem dma_modifyBuffer (q : VirtioVirtqueue) (i : Nat) (f) :
    (q.modifyBuffer i f).dma = Function.update q.dma i
      ((f (q.descriptorBuffers i)).dmaCmdUsed,(f (q.descriptorBuffers i)).dmaCmd) := by
  funext j
  by_cases same : j = i
  · subst j; simp [VirtioVirtqueue.dma]
  · simp [VirtioVirtqueue.dma,same]

theorem dma_link (q : VirtioVirtqueue) (i : Nat) (link : Int) :
    (q.modifyBuffer i fun b => { b with nextDesc := link }).dma = q.dma := by
  rw [dma_modifyBuffer]
  exact Function.update_eq_self i q.dma

@[simp] theorem dma_returnUnusedDescriptor (q : VirtioVirtqueue) (i : Nat) :
    (returnUnusedDescriptor q i).dma = q.dma :=
  dma_link { q with numUnusedDescriptors := _ } i _

@[simp] theorem dma_reserved (q : VirtioVirtqueue) (i : Nat) : (reserved q i).dma = q.dma := rfl

theorem dma_reserveNewDescriptor (q : VirtioVirtqueue) : (reserveNewDescriptor q).2.dma = q.dma := by
  simp only [reserveNewDescriptor]
  split <;> rfl

theorem dma_claimDescriptor (chain : VringDescChain) :
    (claimDescriptor chain).2.queue.dma = chain.queue.dma := by
  unfold claimDescriptor
  split
  · rfl
  · exact dma_reserveNewDescriptor chain.queue

theorem dma_linkDescriptor (chain : VringDescChain) (index : Int) (segment : Segment64) :
    (linkDescriptor chain index segment).queue.dma = chain.queue.dma := by
  simp only [linkDescriptor]
  split
  · exact dma_link { chain.queue with descriptorTable := _ } _ _
  · refine (dma_link { chain.queue.modifyBuffer _ _ with descriptorTable := _ } _ _).trans ?_
    exact dma_link chain.queue _ _

/-- Emission only fills and links descriptors. -/
theorem dma_emitSegments (emitted : emitSegments chain segments = some chain') :
    chain'.queue.dma = chain.queue.dma := by
  induction segments generalizing chain with
  | nil =>
    obtain rfl : chain = chain' := by simpa [emitSegments] using emitted
    rfl
  | cons segment segments ih =>
    obtain ⟨middle,output,later⟩ : ∃ middle, outputVringDescSegment chain segment = some middle ∧
        emitSegments middle segments = some chain' := by
      simpa [emitSegments,Option.bind_eq_some_iff] using emitted
    rw [ih later]
    unfold outputVringDescSegment at output
    dsimp only at output
    split at output
    · cases output
    · obtain rfl := Option.some.inj output
      rw [dma_linkDescriptor,dma_claimDescriptor]

def clearedDma (nodes : List Nat) (dma : Nat → Bool × Option IOMemoryDescriptor) (i : Nat) :
    Bool × Option IOMemoryDescriptor :=
  if i ∈ nodes ∧ (dma i).1 = true then (false, none) else dma i

theorem clearedDma_cons (i : Nat) (rest : List Nat) (dma : Nat → Bool × Option IOMemoryDescriptor) :
    clearedDma rest (clearedDma [i] dma) = clearedDma (i :: rest) dma := by
  funext j
  by_cases same : j = i
  · subst j
    by_cases used : (dma i).1 = true
    · simp [clearedDma,used]
    · simp [clearedDma,used]
  · simp [clearedDma,same]

theorem dma_clearDma (i : Nat) (q : VirtioVirtqueue) :
    (clearDma i q).dma = clearedDma [i] q.dma := by
  funext j
  unfold clearDma
  by_cases used : (q.descriptorBuffers i).dmaCmdUsed = true
  · rw [if_pos used,dma_modifyBuffer]
    by_cases same : j = i
    · subst j; simp [clearedDma,VirtioVirtqueue.dma,used]
    · simp [clearedDma,same]
  · rw [if_neg used]
    by_cases same : j = i
    · subst j; simp [clearedDma,VirtioVirtqueue.dma,used]
    · simp [clearedDma,same]

theorem dma_clearCompleted (i : Nat) (q : VirtioVirtqueue) :
    (clearCompleted i q).dma = clearedDma [i] q.dma := by
  rw [← dma_clearDma]
  unfold clearCompleted clearDma
  split
  · dsimp only
    split
    · rw [dma_modifyBuffer]
      exact Function.update_eq_self i _
    · rfl
  · rfl

theorem dma_releaseChain_skip (released : releaseChain (fun _ q => q) steps start q = some q') :
    q'.dma = q.dma := by
  apply releaseChain_keeps (fun queue => queue.dma = q.dma) _ released rfl
  intro i queue same
  rw [dma_returnUnusedDescriptor,same]

theorem releaseChain_dma (neutral : Neutral visit)
    (clears : ∀ i q, (visit i q).dma = clearedDma [i] q.dma)
    (listed : Listed q.nextDesc start nodes) (nodup : nodes.Nodup)
    (released : releaseChain visit steps start q = some q') : q'.dma = clearedDma nodes q.dma := by
  induction nodes generalizing q start steps with
  | nil =>
    obtain rfl : start = -1 := listed
    rw [releaseChain_end] at released
    obtain rfl := Option.some.inj released
    simp [clearedDma,funext_iff]
  | cons i rest ih =>
    obtain ⟨rfl,tail⟩ := listed
    obtain ⟨fresh,distinct⟩ := List.nodup_cons.mp nodup
    unfold releaseChain at released
    rw [if_neg (show ¬(i : Int) < 0 by omega)] at released
    cases steps with
    | zero => cases released
    | succ steps =>
      simp only [Int.toNat_natCast] at released
      have listed : Listed (returnUnusedDescriptor (visit i q) i).nextDesc (q.nextDesc i) rest := by
        rw [nextDesc_returnUnusedDescriptor,neutral.nextDesc]
        exact tail.update_other fresh
      rw [ih listed distinct released,dma_returnUnusedDescriptor,clears,clearedDma_cons]

/-- Whatever descriptors a rollback visits, it leaves a command as it is or clears it. -/
theorem rollback_dma_or (released : releaseChain clearDma steps start q = some q') (i : Nat) :
    q'.dma i = q.dma i ∨ q'.dma i = (false,none) := by
  apply releaseChain_keeps (fun queue => queue.dma i = q.dma i ∨ queue.dma i = (false,none)) _
    released (.inl rfl)
  intro j queue before
  rw [dma_returnUnusedDescriptor,dma_clearDma,clearedDma]
  split
  · exact .inr rfl
  · exact before

theorem rollback_dma_start (released : releaseChain clearDma steps (i : Nat) q = some q')
    (used : (q.dma i).1 = true) : q'.dma i = (false,none) := by
  unfold releaseChain at released
  rw [if_neg (show ¬(i : Int) < 0 by omega)] at released
  cases steps with
  | zero => cases released
  | succ steps =>
    have cleared : (returnUnusedDescriptor (clearDma i q) i).dma i = (false,none) := by
      rw [dma_returnUnusedDescriptor,dma_clearDma]
      simp [clearedDma,used]
    rcases rollback_dma_or released i with left | cleared'
    · exact left.trans cleared
    · exact cleared'

/-- The readable half: its descriptor's command is in use, has been given back, or was
given back with only the flag set. -/
def ReadableDma (q : VirtioVirtqueue) (buf : IOMemoryDescriptor) (dma : DmaCalls)
    (outcome : GenOutcome) (i : Nat) : Phase (Nat × VringDescChain) → Prop
  | .next (first, chain) => dma.setMemoryDescriptor = .success ∧
      outcome.incomplete buf = false ∧ first = uint16 i ∧
      chain.queue.dma = Function.update q.dma i (true, some buf)
  | .returned _ q' =>
      (dma.setMemoryDescriptor = .success → outcome.incomplete buf = true) ∧
      q'.dma = Function.update q.dma i
        (if dma.setMemoryDescriptor = .success then (false, none) else (true, (q.dma i).2))
  | .stuck => True

theorem submitDeviceReadable_dma (unused : Unused q (i :: free)) (buf : IOMemoryDescriptor)
    (completion : VirtioCompletion) (dma : DmaCalls) (others : Nat) :
    ReadableDma q buf dma
      (dma.genIOVMSegments.emit (q.numUnusedDescriptors - (others - 1))) i
      (submitDeviceReadable q buf completion dma others) := by
  have index : ¬(i : Int) < 0 := by omega
  simp only [submitDeviceReadable,reserveNewDescriptor_cons unused,if_neg index,Int.toNat_natCast]
  generalize dma.genIOVMSegments.emit (q.numUnusedDescriptors - (others - 1)) = outcome
  by_cases attached : dma.setMemoryDescriptor = .success
  · rw [if_neg (not_not.mpr attached),VirtioVirtqueue.modifyBuffer_modifyBuffer]
    split
    · trivial
    rename_i chain emitted
    have dmaEq : chain.queue.dma = Function.update q.dma i (true,some buf) := by
      rw [dma_emitSegments emitted,dma_modifyBuffer,dma_reserved]
    cases complete : outcome.incomplete buf with
    | false => exact ⟨attached,complete,rfl,dmaEq⟩
    | true =>
      simp only [↓reduceIte,rollback]
      split
      · trivial
      rename_i released
      refine ⟨fun _ => complete,?_⟩
      rw [dma_releaseChain_skip released,dma_modifyBuffer,dmaEq,if_pos attached,
        Function.update_idem]
  · rw [if_pos attached]
    refine ⟨fun success => absurd success attached,?_⟩
    rw [dma_returnUnusedDescriptor,dma_modifyBuffer,dma_reserved,if_neg attached]
    rfl

/-- The writable half, likewise. Its failing exits all end in the rollback loop. -/
def WritableDma (q : VirtioVirtqueue) (first : Nat) (buf : IOMemoryDescriptor) (dma : DmaCalls)
    (j : Nat) : Phase (Nat × VringDescChain) → Prop
  | .next (_, chain) => dma.setMemoryDescriptor = .success ∧
      (dma.genIOVMSegments.emit q.numUnusedDescriptors).incomplete buf = false ∧
      chain.queue.dma = Function.update q.dma j (true, some buf)
  | .returned _ q' => ∃ steps queue, releaseChain clearDma steps
        (int16 (if first = uint16Max then uint16 j else first)) queue = some q' ∧
      queue.dma = Function.update q.dma j
        (if dma.setMemoryDescriptor = .success then (false, none) else (true, (q.dma j).2)) ∧
      (dma.setMemoryDescriptor ≠ .success → queue.nextDesc = q.nextDesc)
  | .stuck => True

theorem submitDeviceWritable_dma (unused : Unused chain.queue (j :: rest)) (first : Nat)
    (buf : IOMemoryDescriptor) (completion : VirtioCompletion) (dma : DmaCalls) :
    WritableDma chain.queue first buf dma j
      (submitDeviceWritable first chain buf completion dma) := by
  have index : ¬(j : Int) < 0 := by omega
  simp only [submitDeviceWritable,reserveNewDescriptor_cons unused,if_neg index,Int.toNat_natCast]
  have composed := attach_composed (reserved chain.queue j) (first == uint16Max) completion j
  simp only [beq_iff_eq] at composed
  rw [composed]
  by_cases attached : dma.setMemoryDescriptor = .success
  · rw [if_neg (not_not.mpr attached)]
    split
    · trivial
    rename_i chain' emitted
    have dmaEq : chain'.queue.dma = Function.update chain.queue.dma j (true,some buf) := by
      rw [dma_emitSegments emitted,VirtioVirtqueue.modifyBuffer_modifyBuffer,dma_modifyBuffer,
        dma_reserved]
    split
    · unfold rollback
      split
      · trivial
      rename_i released
      refine ⟨_,_,released,?_,fun failed => absurd attached failed⟩
      rw [dma_modifyBuffer,dmaEq,Function.update_idem,if_pos attached]
    · rename_i complete
      exact ⟨attached,by simpa using complete,dmaEq⟩
  · rw [if_pos attached]
    unfold rollback
    split
    · trivial
    rename_i released
    refine ⟨_,_,released,?_,fun _ => VirtioVirtqueue.modifyBuffer_nextDesc _ j _ fun _ => rfl⟩
    rw [dma_modifyBuffer,dma_reserved,if_neg attached]
    rfl

def readableWalk (q : VirtioVirtqueue) (call : SubmitCall) : GenOutcome :=
  call.readable.genIOVMSegments.emit (q.numUnusedDescriptors - (call.minDescsRequired - 1))

/-- A submission that sets the flag of a descriptor and then leaves through an exit that
neither attaches anything to it nor clears the flag: `setMemoryDescriptor` fails for the
readable buffer, or for the writable one while the rollback loop starts at the readable
one's descriptor. -/
def Stranding (q : VirtioVirtqueue) (call : SubmitCall) : Prop :=
  match call.readableBuffer with
  | none => False
  | some buf => call.readable.setMemoryDescriptor ≠ .success ∨
      (readableWalk q call).incomplete buf = false ∧ call.writableBuffer.isSome = true ∧
        call.writable.setMemoryDescriptor ≠ .success

def attachedDma (dma : Nat → Bool × Option IOMemoryDescriptor) (call : SubmitCall)
    (readable writable : Option Nat) (i : Nat) : Bool × Option IOMemoryDescriptor :=
  if readable = some i then (true, call.readableBuffer)
  else if writable = some i then (true, call.writableBuffer)
  else dma i

/-- The DMA side of the construction of a chain out of the unused list `free`. A failed
call has left a flag behind exactly if it is a stranding one. -/
def DirectDma (q : VirtioVirtqueue) (call : SubmitCall) (free : List Nat) :
    Phase (Nat × VirtioVirtqueue) → Prop
  | .next (_, q') => ¬Stranding q call ∧
      (call.readableBuffer.isSome = true ↔ readableSegments q call ≠ []) ∧
      (call.writableBuffer.isSome = true ↔ writableSegments q call ≠ []) ∧
      q'.dma = attachedDma q.dma call (if call.readableBuffer.isSome then free[0]? else none)
        (if call.writableBuffer.isSome then free[(readableSegments q call).length]? else none)
  | .returned _ q' => (¬Stranding q call → ∀ i ∈ free, q'.dma i = (false, none)) ∧
      (Stranding q call → RefusedEarly q call ∨ ∃ i ∈ free, q'.dma i = (true, none))
  | .stuck => True

/-- A rollback clears what the call has attached, if its flags are all on the chain. -/
theorem WritableDma.rolledBack (outcome : WritableDma q first buf dma j (.returned result q'))
    (start : int16 (if first = uint16Max then uint16 j else first) = (s : Nat))
    (visited : s ≠ j → dma.setMemoryDescriptor = .success ∧ (q.dma s).1 = true)
    (others : k ≠ s → k ≠ j → q.dma k = (false,none)) : q'.dma k = (false,none) := by
  obtain ⟨steps,queue,released,dmaEq,_⟩ := outcome
  rw [start] at released
  have left : queue.dma k = (false,none) → q'.dma k = (false,none) := by
    intro idle
    rcases rollback_dma_or released k with same | cleared
    · exact same.trans idle
    · exact cleared
  by_cases reserved : k = j
  · subst k
    by_cases attached : dma.setMemoryDescriptor = .success
    · apply left
      rw [dmaEq,Function.update_self,if_pos attached]
    · obtain rfl : s = j := by
        by_contra different
        exact attached (visited different).1
      apply rollback_dma_start released
      rw [dmaEq,Function.update_self,if_neg attached]
  · have unchanged : queue.dma k = q.dma k := by rw [dmaEq,Function.update_of_ne reserved]
    by_cases head : k = s
    · subst k
      apply rollback_dma_start released
      rw [unchanged]
      exact (visited reserved).2
    · exact left (unchanged.trans (others head reserved))

/-- A flag that is not on the chain stays set. -/
theorem WritableDma.stranded (outcome : WritableDma q first buf dma j (.returned result q'))
    (failed : dma.setMemoryDescriptor ≠ .success)
    (start : int16 (if first = uint16Max then uint16 j else first) = (s : Nat))
    (listed : Listed q.nextDesc s nodes) (nodup : nodes.Nodup) (outside : j ∉ nodes) :
    q'.dma j = (true,(q.dma j).2) := by
  obtain ⟨steps,queue,released,flagged,links⟩ := outcome
  rw [start] at released
  rw [← links failed] at listed
  rw [releaseChain_dma neutral_clearDma dma_clearDma listed nodup released,clearedDma,
    if_neg (fun both => outside both.1),flagged,Function.update_self,if_neg failed]

theorem attachedDma_both (dma : Nat → Bool × Option IOMemoryDescriptor)
    (readable : call.readableBuffer = some buf) (writable : call.writableBuffer = some writableBuf)
    (different : i ≠ j) :
    Function.update (Function.update dma i (true,some buf)) j (true,some writableBuf) =
      attachedDma dma call (some i) (some j) := by
  funext k
  simp only [attachedDma,readable,writable,Option.some.injEq]
  by_cases readableHere : i = k
  · subst k; simp [different]
  · by_cases writableHere : j = k
    · subst k; simp [readableHere]
    · simp [readableHere,writableHere,Ne.symm readableHere,Ne.symm writableHere]

theorem buildDirectChain_writable_dma (unused : Unused q (j :: rest))
    (idle : ∀ i ∈ j :: rest, q.dma i = (false,none)) (readable : call.readableBuffer = none)
    (writable : call.writableBuffer = some buf) :
    DirectDma q call (j :: rest)
      ((submitDeviceWritable uint16Max ⟨q,uint16Max,uint16Max,false⟩ buf call.completion
        call.writable).bind fun (firstDescriptorIndex, chain) =>
          .next (firstDescriptorIndex, chain.queue)) := by
  have outcome : WritableDma q uint16Max buf call.writable j (submitDeviceWritable uint16Max
      ⟨q,uint16Max,uint16Max,false⟩ buf call.completion call.writable) :=
    submitDeviceWritable_dma unused uint16Max buf call.completion call.writable
  have small : j < 32768 := unused.small j List.mem_cons_self
  have none : readableSegments q call = [] := by simp [readableSegments,readable]
  revert outcome
  cases submitDeviceWritable uint16Max ⟨q,uint16Max,uint16Max,false⟩ buf call.completion
    call.writable with
  | stuck => exact fun _ => trivial
  | returned result q' =>
    intro outcome
    refine ⟨fun _ i member => ?_,fun stranding => by simp [Stranding,readable] at stranding⟩
    apply outcome.rolledBack (s := j)
    · rw [if_pos rfl,uint16_cast j (by omega),int16_cast j small]
    · exact fun different => absurd rfl different
    · exact fun _ _ => idle i member
  | next value =>
    intro outcome
    have some := GenOutcome.emitted _ buf outcome.2.1
    refine ⟨by simp [Stranding,readable],by simp [readable,none],
      by simp [writable,writableSegments,none,some],?_⟩
    rw [outcome.2.2]
    funext i
    by_cases same : j = i
    · subst i; simp [attachedDma,readable,writable,none]
    · simp [attachedDma,readable,writable,none,same,Ne.symm same]

theorem ReadableDma.refused (readable : call.readableBuffer = some buf)
    (idle : ∀ k ∈ i :: free, q.dma k = (false,none))
    (outcome : ReadableDma q buf call.readable (readableWalk q call) i (.returned result q')) :
    DirectDma q call (i :: free) (.returned result q') := by
  obtain ⟨incomplete,dmaEq⟩ := outcome
  by_cases attached : call.readable.setMemoryDescriptor = .success
  · refine ⟨fun _ k member => ?_,fun stranding => ?_⟩
    · rw [dmaEq,if_pos attached]
      by_cases same : k = i
      · subst k; simp
      · rw [Function.update_of_ne same,idle k member]
    · simp [Stranding,readable,attached,incomplete attached] at stranding
  · refine ⟨fun sound => ?_,fun _ => .inr ⟨i,List.mem_cons_self,?_⟩⟩
    · exact absurd (by simp [Stranding,readable,attached]) sound
    · rw [dmaEq,if_neg attached,Function.update_self,idle i List.mem_cons_self]

/-- The writable half after a readable half that has built its part of the chain. -/
theorem buildDirectChain_both_dma {chain : VringDescChain} (unused : Unused q (i :: free))
    (idle : ∀ k ∈ i :: free, q.dma k = (false,none)) (readable : call.readableBuffer = some buf)
    (writable : call.writableBuffer = some writableBuf)
    (enough : call.minDescsRequired ≤ q.numUnusedDescriptors)
    (building : Building base chain ((i :: free).drop (readableSegments q call).length)
      ((i :: free).take (readableSegments q call).length) entries)
    (clear : chain.reservedDescriptorIndex = uint16Max) (some : readableSegments q call ≠ [])
    (attached : call.readable.setMemoryDescriptor = .success)
    (complete : (readableWalk q call).incomplete buf = false)
    (dmaEq : chain.queue.dma = Function.update q.dma i (true,Option.some buf)) :
    DirectDma q call (i :: free)
      ((submitDeviceWritable (uint16 i) chain writableBuf call.completion call.writable).bind
        fun (firstDescriptorIndex, chain) => .next (firstDescriptorIndex, chain.queue)) := by
  have small : i < 32768 := unused.small i List.mem_cons_self
  obtain ⟨j,rest,pending⟩ := readable_leaves unused readable writable enough
  have after := building.unused clear
  have emitted := writableSegments_eq unused after writable
  have reserved : (i :: free)[(readableSegments q call).length]? = Option.some j := by
    rw [← List.head?_drop,pending]
    rfl
  obtain ⟨segment,segments,segmentsEq⟩ := List.exists_cons_of_ne_nil some
  have begins : chainStart ((i :: free).take (readableSegments q call).length) = i := by
    simp [segmentsEq,chainStart]
  have outside : j ∉ (i :: free).take (readableSegments q call).length := by
    intro inside
    apply (List.nodup_append.mp building.nodup).2.2 j inside j
    · rw [pending]
      exact List.mem_cons_self
    · rfl
  have different : i ≠ j := by
    rintro rfl
    apply outside
    simp [segmentsEq]
  have start : int16 (if uint16 i = uint16Max then uint16 j else uint16 i) = i := by
    rw [uint16_cast i (by omega),if_neg (by simp only [uint16Max]; omega),int16_cast i small]
  have listed := building.grown.listed
  rw [begins] at listed
  rw [pending] at after
  have second := submitDeviceWritable_dma after (uint16 i) writableBuf call.completion
    call.writable
  revert second
  cases submitDeviceWritable (uint16 i) chain writableBuf call.completion call.writable with
  | stuck => exact fun _ => trivial
  | returned result q' =>
    intro second
    by_cases writableAttached : call.writable.setMemoryDescriptor = .success
    · refine ⟨fun _ k inside => ?_,fun stranding => ?_⟩
      · apply second.rolledBack start
        · exact fun _ => ⟨writableAttached,by simp [dmaEq]⟩
        · intro other _
          rw [dmaEq,Function.update_of_ne other,idle k inside]
      · simp [Stranding,readable,attached,writableAttached] at stranding
    · -- the loop walks the readable part only
      refine ⟨fun sound => ?_,fun _ => .inr ⟨j,List.mem_of_getElem? reserved,?_⟩⟩
      · exact absurd (by simp [Stranding,readable,complete,writable,writableAttached]) sound
      · rw [second.stranded writableAttached start listed
          (List.nodup_append.mp building.nodup).1 outside,dmaEq,
          Function.update_of_ne (Ne.symm different),idle j (List.mem_of_getElem? reserved)]
  | next value =>
    intro second
    have someWritable := GenOutcome.emitted _ writableBuf second.2.1
    rw [← emitted] at someWritable
    refine ⟨by simp [Stranding,readable,attached,second.1],by simp [readable,some],
      by simp [writable,someWritable],?_⟩
    rw [second.2.2,dmaEq,attachedDma_both q.dma readable writable different,reserved]
    simp [readable,writable]

theorem buildDirectChain_readable_dma (unused : Unused q (i :: free))
    (fits : (i :: free).length ≤ q.numEntries)
    (idle : ∀ k ∈ i :: free, q.dma k = (false,none)) (readable : call.readableBuffer = some buf)
    (enough : call.minDescsRequired ≤ q.numUnusedDescriptors) (linked : ¬HeadUnlinked q call) :
    DirectDma q call (i :: free)
      ((submitDeviceReadable q buf call.completion call.readable call.minDescsRequired).bind
        fun (firstDescriptorIndex, chain) =>
        (match call.writableBuffer with
          | some buf =>
            submitDeviceWritable firstDescriptorIndex chain buf call.completion call.writable
          | none => .next (firstDescriptorIndex, chain)).bind
        fun (firstDescriptorIndex, chain) => .next (firstDescriptorIndex, chain.queue)) := by
  have first : ReadableDma q buf call.readable (readableWalk q call) i _ :=
    submitDeviceReadable_dma unused buf call.completion call.readable call.minDescsRequired
  have shape := submitDeviceReadable_spec unused fits buf call.completion call.readable
    call.minDescsRequired (readable_alone unused readable linked)
  have segments : (call.readable.genIOVMSegments.emit
      (q.numUnusedDescriptors - (call.minDescsRequired - 1))).segments = readableSegments q call := by
    simp [readableSegments,readable]
  rw [segments] at shape
  revert first shape
  cases submitDeviceReadable q buf call.completion call.readable call.minDescsRequired with
  | stuck => exact fun _ _ => trivial
  | returned result q' => exact fun first _ => first.refused readable idle
  | next value =>
    obtain ⟨head,chain⟩ := value
    intro first shape
    obtain ⟨attached,complete,rfl,dmaEq⟩ := first
    obtain ⟨_,some,clear,building⟩ := shape
    rw [Phase.bind_next]
    cases writable : call.writableBuffer with
    | none =>
      refine ⟨by simp [Stranding,readable,attached,writable],by simp [readable,some],
        by simp [writable,writableSegments],?_⟩
      rw [dmaEq]
      funext k
      by_cases same : i = k
      · subst k; simp [attachedDma,readable]
      · simp [attachedDma,readable,writable,same,Ne.symm same]
    | some writableBuf =>
      exact buildDirectChain_both_dma unused idle readable writable enough building clear some
        attached complete dmaEq

theorem buildDirectChain_dma (direct : q.indirectDescriptors = false) (unused : Unused q free)
    (fits : free.length ≤ q.numEntries) (idle : ∀ i ∈ free, q.dma i = (false,none))
    (linked : ¬HeadUnlinked q call) : DirectDma q call free (buildDirectChain q call) := by
  unfold buildDirectChain
  split
  · rename_i many
    exact ⟨fun _ => idle,fun _ => .inl (by simp [RefusedEarly,direct,many])⟩
  split
  · rename_i none
    exact ⟨fun _ => idle,fun _ => .inl (by simp [RefusedEarly,direct,none])⟩
  split
  · rename_i busy
    exact ⟨fun _ => idle,fun _ => .inl (by simp [RefusedEarly,direct,busy])⟩
  rename_i _ required enough
  obtain ⟨i,rest,rfl⟩ := unused.exists_cons (by omega)
  cases readable : call.readableBuffer with
  | some buf => exact buildDirectChain_readable_dma unused fits idle readable (by omega) linked
  | none =>
    cases writable : call.writableBuffer with
    | some buf => exact buildDirectChain_writable_dma unused idle readable writable
    | none => simp [SubmitCall.minDescsRequired,readable,writable] at required

def describesWritable (table : Nat → VirtioVringDesc) (i : Nat) : Bool :=
  (table i).flags &&& VirtioVringDescFlag.deviceWritable != 0

def firstReadable (table : Nat → VirtioVringDesc) (descs : List Nat) : Option Nat :=
  descs.find? fun i => !describesWritable table i

def firstWritable (table : Nat → VirtioVringDesc) (descs : List Nat) : Option Nat :=
  descs.find? fun i => describesWritable table i

theorem describesWritable_eq (encoded : table i = descriptorOf entry successor) :
    describesWritable table i = entry.2 := by
  obtain ⟨segment,writable⟩ := entry
  rw [describesWritable,encoded]
  cases writable
  all_goals cases successor
  all_goals simp [descriptorOf,entryFlags,VirtioVringDescFlag.deviceWritable,VirtioVringDescFlag.next]

theorem Encodes.directions (encodes : Encodes table nodes entries) :
    List.Forall₂ (fun i entry => describesWritable table i = entry.2) nodes entries := by
  induction nodes generalizing entries with
  | nil => cases entries with
    | nil => exact .nil
    | cons => exact absurd encodes id
  | cons i rest ih => cases entries with
    | nil => exact absurd encodes id
    | cons entry entries => exact .cons (describesWritable_eq encodes.1) (ih encodes.2)

theorem all_directions (segments : List Segment64)
    (directions : List.Forall₂ (fun i entry => describesWritable table i = entry.2) nodes
      (segments.map fun segment => (segment,writable))) :
    ∀ i ∈ nodes, describesWritable table i = writable := by
  have same : List.Forall₂ (fun i _ => describesWritable table i = writable ∧ True) nodes segments := by
    simpa using List.forall₂_map_right_iff.mp directions
  exact ((List.forall₂_and_left _ _).mp same).1

theorem find?_eq_head? {nodes : List Nat} {p : Nat → Bool} (all : ∀ i ∈ nodes, p i = true) :
    nodes.find? p = nodes.head? := by
  cases nodes with
  | nil => rfl
  | cons i rest => simp [all i List.mem_cons_self]

theorem Encodes.firsts {readable writable : List Segment64}
    (encodes : Encodes table descs (readable.map (fun segment => (segment,false)) ++
      writable.map (fun segment => (segment,true)))) :
    firstReadable table descs = (descs.take readable.length).head? ∧
      firstWritable table descs = descs[readable.length]? := by
  have front := all_directions readable (List.forall₂_take_append _ _ _ encodes.directions)
  have back := all_directions writable (List.forall₂_drop_append _ _ _ encodes.directions)
  rw [List.length_map] at front back
  have split := List.take_append_drop readable.length descs
  have unreadable : (descs.drop readable.length).find? (fun i => !describesWritable table i) = none := by
    simpa using back
  have unwritable : (descs.take readable.length).find? (fun i => describesWritable table i) = none := by
    simpa using front
  constructor
  · rw [firstReadable,← split,List.find?_append,unreadable,Option.or_none,split]
    exact find?_eq_head? (by simpa using front)
  · rw [firstWritable,← split,List.find?_append,unwritable,Option.none_or,split,← List.head?_drop]
    exact find?_eq_head? (by simpa using back)

/-- A finished chain has the buffers of its call attached at the first readable and the
first writable of its descriptors, and nothing else has changed. -/
theorem buildDirectChain_attached (direct : q.indirectDescriptors = false)
    (unused : Unused q free) (fits : free.length ≤ q.numEntries)
    (idle : ∀ i ∈ free, q.dma i = (false,none)) (linked : ¬HeadUnlinked q call)
    (built : buildDirectChain q call = .next (head, q')) :
    ∃ descs rest, free = descs ++ rest ∧
      Built q q' call.completion (directEntries q call) head descs rest ∧
      q'.dma = attachedDma q.dma call (firstReadable q'.descriptorTable descs)
        (firstWritable q'.descriptorTable descs) ∧
      ((firstReadable q'.descriptorTable descs).isSome = true → call.readableBuffer.isSome = true) ∧
      ((firstWritable q'.descriptorTable descs).isSome = true →
        call.writableBuffer.isSome = true) := by
  have shape := buildDirectChain_spec unused fits linked
  have commands := buildDirectChain_dma direct unused fits idle linked
  rw [built] at shape commands
  obtain ⟨descs,rest,rfl,chain⟩ := shape
  obtain ⟨_,readable,writable,dmaEq⟩ := commands
  obtain ⟨readableFirst,writableFirst⟩ := chain.encodes.firsts
  have length := chain.encodes.length
  simp only [directEntries,List.length_append,List.length_map] at length
  have readableAt : (if call.readableBuffer.isSome = true then (descs ++ rest)[0]? else none) =
      firstReadable q'.descriptorTable descs := by
    rw [readableFirst]
    by_cases present : call.readableBuffer.isSome = true
    · have positive := List.length_pos_iff.mpr (readable.mp present)
      rw [if_pos present,List.getElem?_append_left (by omega),List.head?_take,
        if_neg (by omega),List.head?_eq_getElem?]
    · have empty : readableSegments q call = [] := by
        by_contra some
        exact present (readable.mpr some)
      simp [present,empty]
  have writableAt : (if call.writableBuffer.isSome = true then
      (descs ++ rest)[(readableSegments q call).length]? else none) =
      firstWritable q'.descriptorTable descs := by
    rw [writableFirst]
    by_cases present : call.writableBuffer.isSome = true
    · have positive := List.length_pos_iff.mpr (writable.mp present)
      rw [if_pos present,List.getElem?_append_left (by omega)]
    · have empty : writableSegments q call = [] := by
        by_contra some
        exact present (writable.mpr some)
      rw [empty,List.length_nil,Nat.add_zero] at length
      simp [present,length]
  rw [readableAt,writableAt] at dmaEq
  refine ⟨descs,rest,rfl,chain,dmaEq,fun found => ?_,fun found => ?_⟩
  · rw [← readableAt] at found
    by_contra absent
    simp [absent] at found
  · rw [← writableAt] at found
    by_contra absent
    simp [absent] at found

/-- A failed call that has stranded no flag leaves every command as it found it. -/
theorem buildDirectChain_restored (direct : q.indirectDescriptors = false)
    (unused : Unused q free) (fits : free.length ≤ q.numEntries)
    (idle : ∀ i ∈ free, q.dma i = (false,none)) (linked : ¬HeadUnlinked q call)
    (sound : ¬Stranding q call) (left : buildDirectChain q call = .returned result q') :
    q'.dma = q.dma ∧ Agree free q q' := by
  have shape := buildDirectChain_spec unused fits linked
  have commands := buildDirectChain_dma direct unused fits idle linked
  rw [left] at shape commands
  obtain ⟨_,kept,lost,_,_,agree⟩ := shape
  refine ⟨?_,agree⟩
  funext i
  by_cases member : i ∈ free
  · rw [commands.1 sound i member,idle i member]
  · exact agree.dma member

/-- A stranding call fails and leaves a flag behind, unless it is refused early. -/
theorem buildDirectChain_stranded (direct : q.indirectDescriptors = false)
    (unused : Unused q free) (fits : free.length ≤ q.numEntries)
    (idle : ∀ i ∈ free, q.dma i = (false,none)) (linked : ¬HeadUnlinked q call)
    (stranding : Stranding q call) (accepted : ¬RefusedEarly q call) :
    ∃ result q' i, buildDirectChain q call = .returned result q' ∧ q'.dma i = (true,none) := by
  have shape := buildDirectChain_spec unused fits linked
  have commands := buildDirectChain_dma direct unused fits idle linked
  cases phase : buildDirectChain q call with
  | stuck =>
    rw [phase] at shape
    exact shape.elim
  | next value =>
    rw [phase] at commands
    exact absurd stranding commands.1
  | returned result q' =>
    rw [phase] at commands
    obtain ⟨i,_,flagged⟩ := (commands.2 stranding).resolve_left accepted
    exact ⟨result,q',i,rfl,flagged⟩

/-- The rollback of a stranding call starts on a linked descriptor. -/
theorem Stranding.linked (stranding : Stranding q call) : ¬HeadUnlinked q call := by
  rintro ⟨_,unlinked⟩
  cases readable : call.readableBuffer with
  | none => simp [Stranding,readable] at stranding
  | some buf =>
    simp only [readable,readableSegments] at unlinked
    obtain ⟨attached,empty⟩ := unlinked
    have incomplete := GenOutcome.incomplete_of_nil empty buf
    simp [Stranding,readable,attached,readableWalk,incomplete] at stranding

end VirtioOsx
