import VirtioOsx.DmaRuns

/-! Which failing submissions leave the queue as it was. With direct descriptors, a walk
that has emitted a segment is rolled back completely. Before that the reserved
descriptor is on no chain: its link still continues into the unused list, and a chain
built for the other buffer does not lead to it. With indirect descriptors, the exits
that check the arguments forget the descriptor that has been reserved before them. -/
namespace VirtioOsx

open Runs

/-- What a failed call should leave behind: the same unused descriptors in some order,
the same requests in flight and the same position in the available ring. -/
structure Undone (q q' : VirtioVirtqueue) (free : List Nat) (inflight : List Request) : Prop where
  unused : ∃ kept, Unused q' kept ∧ kept.Perm free
  count : q'.numUnusedDescriptors = q.numUnusedDescriptors
  chains : ∀ r ∈ inflight, Holding q' r ∧ ∀ i ∈ r.descs,
    q'.descriptorBuffers i = q.descriptorBuffers i ∧ q'.descriptorTable i = q.descriptorTable i
  headIndex : q'.availableRing.headIndex = q.availableRing.headIndex

def FailsUndone (q : VirtioVirtqueue) (call : SubmitCall) (free : List Nat)
    (inflight : List Request) : Prop :=
  ∃ ret, submitBuffers q call = some ret ∧ ret.result ≠ .success ∧ Undone q ret.queue free inflight

theorem Undone.of_agree (partition : Partition n q free inflight lost) (unused : Unused q' kept)
    (perm : kept.Perm free) (agree : Agree free q q') : Undone q q' free inflight where
  unused := ⟨kept,unused,perm⟩
  count := by rw [unused.count,partition.unused.count,perm.length_eq]
  chains r member := by
    refine ⟨(partition.holding r member).frame agree (partition.apart member),fun i inside => ?_⟩
    have apart := partition.apart member i inside
    exact ⟨agree.buffers i apart,agree.table i apart⟩
  headIndex := by rw [agree.availableRing]

theorem submitBuffers_returned (left : buildChain q call = .returned result q') :
    submitBuffers q call = some ⟨result,q',false⟩ := by
  simp [submitBuffers,left]

theorem buildChain_direct (direct : q.indirectDescriptors = false) (call : SubmitCall) :
    buildChain q call = buildDirectChain q call := by
  simp [buildChain,direct]

/-- On a failing exit the property is about the queue that is left there. -/
theorem failsUndone_returned (left : buildChain q call = .returned result q')
    (failed : result ≠ .success) :
    FailsUndone q call free inflight ↔ Undone q q' free inflight := by
  have submitted := submitBuffers_returned left
  constructor
  · rintro ⟨ret,returned,_,undone⟩
    obtain rfl := Option.some.inj (submitted.symm.trans returned)
    exact undone
  · exact fun undone => ⟨_,submitted,failed,undone⟩

/-- A submission that passes the checks makes its two halves in turn. -/
theorem buildDirectChain_accepted (direct : q.indirectDescriptors = false)
    (accepted : ¬RefusedEarly q call) :
    buildDirectChain q call =
      (match call.readableBuffer with
        | some buf =>
          submitDeviceReadable q buf call.completion call.readable call.minDescsRequired
        | none => .next (uint16Max, ⟨q, uint16Max, uint16Max, false⟩)).bind
      fun (firstDescriptorIndex, chain) =>
        (match call.writableBuffer with
          | some buf =>
            submitDeviceWritable firstDescriptorIndex chain buf call.completion call.writable
          | none => .next (firstDescriptorIndex, chain)).bind
        fun (firstDescriptorIndex, chain) => .next (firstDescriptorIndex, chain.queue) := by
  simp only [RefusedEarly,direct,Bool.false_eq_true,if_false,not_or] at accepted
  obtain ⟨fits,nonempty,enough⟩ := accepted
  exact (if_neg fits).trans ((if_neg nonempty).trans (if_neg enough))

theorem accepted_enough (direct : q.indirectDescriptors = false) (accepted : ¬RefusedEarly q call) :
    0 < call.minDescsRequired ∧ call.minDescsRequired ≤ q.numUnusedDescriptors := by
  simp only [RefusedEarly,direct,Bool.false_eq_true,if_false,not_or] at accepted
  omega

theorem accepted_cons (direct : q.indirectDescriptors = false) (unused : Unused q free)
    (accepted : ¬RefusedEarly q call) : ∃ i rest, free = i :: rest := by
  have enough := accepted_enough direct accepted
  exact unused.exists_cons (by omega)

/-- A rollback from a reserved descriptor that is on no chain walks the unused list and
counts it a second time. -/
theorem rollback_overcounts (neutral : Neutral visit) (unused : Unused q (i :: free)) (f)
    (kept : ∀ b, (f b).nextDesc = b.nextDesc) (fits : (i :: free).length ≤ q.numEntries) :
    ∃ q', releaseChain visit q.numEntries i ((reserved q i).modifyBuffer i f) = some q' ∧
      q'.numUnusedDescriptors = q.numUnusedDescriptors + free.length ∧ Agree (i :: free) q q' := by
  have listed : Listed ((reserved q i).modifyBuffer i f).nextDesc i (i :: free) := by
    rw [nextDesc_of_reserved q i f kept]
    exact ⟨rfl,unused.listed.2⟩
  have count := unused.reserve.count
  have before := unused.count
  have short := unused.length_le
  simp only [List.length_cons] at before short
  obtain ⟨q',released,total,agree⟩ := releaseChain_count neutral listed unused.nodup fits
    (by rw [VirtioVirtqueue.modifyBuffer_count]; omega)
  refine ⟨q',released,?_,(agree_of_reserved q f List.mem_cons_self).trans agree⟩
  rw [total,VirtioVirtqueue.modifyBuffer_count,List.length_cons]
  omega

/-- So it undoes the reservation exactly if nothing else is unused. -/
theorem failsUndone_unlinked (partition : Partition n q (i :: free) inflight lost)
    (neutral : Neutral visit) (failed : result ≠ .success) (f)
    (kept : ∀ b : VirtioBuffer, (f b).nextDesc = b.nextDesc)
    (exit : buildChain q call = rollback visit result i ((reserved q i).modifyBuffer i f)) :
    FailsUndone q call (i :: free) inflight ↔ q.numUnusedDescriptors = 1 := by
  have unused := partition.unused
  have count := unused.count
  have fits : (i :: free).length ≤ q.numEntries := by rw [partition.size]; exact partition.fits
  constructor
  · obtain ⟨q',released,total,_⟩ := rollback_overcounts neutral unused f kept fits
    rw [rollback_eq released] at exit
    rw [failsUndone_returned exit failed]
    intro undone
    have same := undone.count
    rw [List.length_cons] at count
    omega
  · intro lone
    obtain rfl : free = [] := by
      rw [lone,List.length_cons] at count
      exact List.length_eq_zero_iff.mp (by omega)
    obtain ⟨q',released,final,agree⟩ := rollback_lone neutral unused f kept fits
    rw [rollback_eq released] at exit
    rw [failsUndone_returned exit failed]
    exact Undone.of_agree partition final (.refl _) agree

/-- A direct submission that passes its checks and then fails for one of its buffers
before any segment of that buffer has been emitted. -/
def FailsUnemitted (q : VirtioVirtqueue) (call : SubmitCall) : Prop :=
  ¬RefusedEarly q call ∧
  match call.readableBuffer with
  | none => call.writable.setMemoryDescriptor ≠ .success ∨ writableSegments q call = []
  | some buf => call.readable.setMemoryDescriptor ≠ .success ∨ readableSegments q call = [] ∨
      (readableWalk q call).incomplete buf = false ∧ call.writableBuffer.isSome = true ∧
        (call.writable.setMemoryDescriptor ≠ .success ∨ writableSegments q call = [])

def writableWalk (q : VirtioVirtqueue) (call : SubmitCall) : GenOutcome :=
  call.writable.genIOVMSegments.emit
    (q.numUnusedDescriptors - (readableSegments q call).length)

/-- A direct submission that passes its checks, attaches its buffers, and fails for one of
them after some of its segments have been emitted. -/
def FailsEmitted (q : VirtioVirtqueue) (call : SubmitCall) : Prop :=
  ¬RefusedEarly q call ∧
  match call.readableBuffer with
  | none => call.writable.setMemoryDescriptor = .success ∧ writableSegments q call ≠ [] ∧
      ∃ buf, call.writableBuffer = some buf ∧ (writableWalk q call).incomplete buf = true
  | some buf => call.readable.setMemoryDescriptor = .success ∧ readableSegments q call ≠ [] ∧
      ((readableWalk q call).incomplete buf = true ∨
        call.writable.setMemoryDescriptor = .success ∧ writableSegments q call ≠ [] ∧
          ∃ buf, call.writableBuffer = some buf ∧ (writableWalk q call).incomplete buf = true)

def attachedBy (q : VirtioVirtqueue) (call : SubmitCall) (free : List Nat) : List Nat :=
  match call.readableBuffer with
  | none => free.take 1
  | some buf => free.take 1 ++ if (readableWalk q call).incomplete buf then [] else
      (free.drop (readableSegments q call).length).take 1

theorem writable_of_accepted (direct : q.indirectDescriptors = false)
    (accepted : ¬RefusedEarly q call) (readable : call.readableBuffer = none) :
    ∃ buf, call.writableBuffer = some buf := by
  have enough := accepted_enough direct accepted
  cases writable : call.writableBuffer with
  | none => simp [SubmitCall.minDescsRequired,readable,writable] at enough
  | some buf => exact ⟨buf,rfl⟩

/-- The limit for the writable buffer, seen from the start of the call. -/
theorem writableWalk_eq (unused : Unused q free)
    (after : Unused queue (free.drop (readableSegments q call).length)) :
    call.writable.genIOVMSegments.emit queue.numUnusedDescriptors = writableWalk q call := by
  simp [writableWalk,after.count,unused.count]

theorem writableSegments_walk (writable : call.writableBuffer = some buf) :
    writableSegments q call = (writableWalk q call).segments := by
  simp [writableSegments,writable,writableWalk]

theorem readableSegments_walk (readable : call.readableBuffer = some buf) :
    readableSegments q call = (readableWalk q call).segments := by
  simp [readableSegments,readable,readableWalk]

section Exits

variable {q : VirtioVirtqueue} {call : SubmitCall} {i : Nat} {free : List Nat}

theorem readable_completed (unused : Unused q (i :: free))
    (fits : (i :: free).length ≤ q.numEntries) (readable : call.readableBuffer = some buf)
    (attached : call.readable.setMemoryDescriptor = .success)
    (complete : (readableWalk q call).incomplete buf = false) :
    ∃ chain, submitDeviceReadable q buf call.completion call.readable call.minDescsRequired =
        .next (i, chain) ∧
      chain.reservedDescriptorIndex = uint16Max ∧
      Building (readablePrepared q i buf call.completion) chain
        ((i :: free).drop (readableSegments q call).length)
        ((i :: free).take (readableSegments q call).length)
        ((readableSegments q call).map fun segment => (segment,false)) := by
  have walked := submitDeviceReadable_walked unused fits buf call.completion call.readable
    call.minDescsRequired attached rfl (GenOutcome.emitted (readableWalk q call) buf complete)
  have whole : ¬(call.readable.genIOVMSegments.emit
      (q.numUnusedDescriptors - (call.minDescsRequired - 1))).incomplete buf = true := by
    simpa [readableWalk] using complete
  rw [if_neg whole] at walked
  rw [readableSegments_walk readable]
  exact walked

theorem head_of_readable (some : readableSegments q call ≠ []) :
    ((i :: free).take (readableSegments q call).length).head?.getD uint16Max = i := by
  obtain ⟨segment,segments,segmentsEq⟩ := List.exists_cons_of_ne_nil some
  simp [segmentsEq]

variable (direct : q.indirectDescriptors = false) (accepted : ¬RefusedEarly q call)
include direct accepted

theorem buildChain_readable_left (readable : call.readableBuffer = some buf)
    (left : submitDeviceReadable q buf call.completion call.readable call.minDescsRequired =
      .returned result q') : buildChain q call = .returned result q' := by
  rw [buildChain_direct direct,buildDirectChain_accepted direct accepted]
  simp only [readable,left,Phase.bind_returned]

theorem buildChain_both (readable : call.readableBuffer = some buf)
    (writable : call.writableBuffer = some writableBuf)
    (completed : submitDeviceReadable q buf call.completion call.readable call.minDescsRequired =
      .next (i, chain)) :
    buildChain q call =
      (submitDeviceWritable i chain writableBuf call.completion call.writable).bind
        fun (firstDescriptorIndex, chain) => .next (firstDescriptorIndex, chain.queue) := by
  rw [buildChain_direct direct,buildDirectChain_accepted direct accepted]
  simp only [readable,writable,completed,Phase.bind_next]

theorem buildChain_writable_only (readable : call.readableBuffer = none)
    (writable : call.writableBuffer = some buf) :
    buildChain q call =
      (submitDeviceWritable uint16Max ⟨q,uint16Max,uint16Max,false⟩ buf call.completion
        call.writable).bind
        fun (firstDescriptorIndex, chain) => .next (firstDescriptorIndex, chain.queue) := by
  rw [buildChain_direct direct,buildDirectChain_accepted direct accepted]
  simp only [readable,writable,Phase.bind_next]

end Exits

theorem rollback_bind (visit : Nat → VirtioVirtqueue → VirtioVirtqueue) (result : IOReturn)
    (start : Int) (q : VirtioVirtqueue) (rest : α → Phase β) :
    (rollback visit result start q : Phase α).bind rest = rollback visit result start q := by
  unfold rollback
  split <;> rfl

/-- With a readable part, a writable half that has linked nothing loses a descriptor. -/
theorem not_failsUndone_lost (partition : Partition n q (i :: free) inflight lost)
    (direct : q.indirectDescriptors = false) (accepted : ¬RefusedEarly q call)
    (readable : call.readableBuffer = some buf) (writable : call.writableBuffer = some writableBuf)
    (attached : call.readable.setMemoryDescriptor = .success)
    (complete : (readableWalk q call).incomplete buf = false)
    (empty : call.writable.setMemoryDescriptor ≠ .success ∨ writableSegments q call = []) :
    ¬FailsUndone q call (i :: free) inflight := by
  have unused := partition.unused
  have fits : (i :: free).length ≤ q.numEntries := by rw [partition.size]; exact partition.fits
  have some : readableSegments q call ≠ [] := by
    rw [readableSegments_walk readable]
    exact GenOutcome.emitted _ buf complete
  obtain ⟨chain,completed,clear,building⟩ :=
    readable_completed unused fits readable attached complete
  obtain ⟨j,rest,pending⟩ := readable_leaves unused readable writable
    (accepted_enough direct accepted).2
  have size : (readablePrepared q i buf call.completion).numEntries = q.numEntries := rfl
  rw [writableSegments_walk writable,← writableWalk_eq unused (building.unused clear)] at empty
  have split := List.take_append_drop (readableSegments q call).length (i :: free)
  rw [pending] at building split
  have length := congrArg List.length split
  simp only [List.length_append,List.length_cons] at length fits
  obtain ⟨result,f,failed,kept,exit⟩ := submitDeviceWritable_unlinked building clear
    (head_of_readable some) writableBuf call.completion call.writable empty
  obtain ⟨q',released,final,_⟩ := building.rolledBack_unlinked clear f kept (by omega)
  have begins : chainStart ((i :: free).take (readableSegments q call).length ++ [j]) =
      chainStart ((i :: free).take (readableSegments q call).length) := by
    obtain ⟨segment,segments,segmentsEq⟩ := List.exists_cons_of_ne_nil some
    rw [segmentsEq]
    rfl
  have left : buildChain q call = .returned result q' := by
    rw [buildChain_both direct accepted readable writable completed,exit,rollback_bind,begins,
      rollback_eq released]
  rw [failsUndone_returned left failed]
  intro undone
  have same := undone.count
  have before := unused.count
  rw [final.count,List.length_append,List.length_reverse] at same
  rw [List.length_cons] at before
  omega

/-- A direct submission that fails before it has emitted a segment of the buffer in
question undoes itself exactly if it is `setMemoryDescriptor` of the readable buffer
that has failed, or if it had been given the last unused descriptor. -/
theorem unemitted_failure_undone_iff (partition : Partition n q free inflight lost)
    (direct : q.indirectDescriptors = false) (fails : FailsUnemitted q call) :
    FailsUndone q call free inflight ↔
      call.readableBuffer.isSome = true ∧ call.readable.setMemoryDescriptor ≠ .success ∨
        q.numUnusedDescriptors = 1 := by
  obtain ⟨accepted,fails⟩ := fails
  obtain ⟨i,free,rfl⟩ := accepted_cons direct partition.unused accepted
  have unused := partition.unused
  cases readable : call.readableBuffer with
  | none =>
    obtain ⟨buf,writable⟩ := writable_of_accepted direct accepted readable
    have none : readableSegments q call = [] := by simp [readableSegments,readable]
    simp only [readable,writableSegments_walk writable] at fails
    rw [← writableWalk_eq unused (by rw [none]; exact unused)] at fails
    have unset : ([] : List Nat).head?.getD uint16Max = uint16Max := rfl
    obtain ⟨result,f,failed,kept,exit⟩ := submitDeviceWritable_unlinked (building_nothing unused) rfl
      unset buf call.completion call.writable fails
    have left : buildChain q call =
        rollback clearDma result i ((reserved q i).modifyBuffer i f) := by
      rw [buildChain_writable_only direct accepted readable writable,exit,rollback_bind]
      rfl
    simpa using failsUndone_unlinked partition neutral_clearDma failed f kept left
  | some buf =>
    simp only [readable] at fails
    by_cases attached : call.readable.setMemoryDescriptor = .success
    · simp only [attached,ne_eq,not_true_eq_false,and_false,false_or] at fails ⊢
      rcases fails with empty | ⟨complete,writable,empty⟩
      · rw [readableSegments_walk readable] at empty
        obtain ⟨result,f,failed,kept,exit⟩ := submitDeviceReadable_unlinked unused buf
          call.completion call.readable call.minDescsRequired attached empty
        have left : buildChain q call =
            rollback (fun _ queue => queue) result i ((reserved q i).modifyBuffer i f) := by
          rw [buildChain_direct direct,buildDirectChain_accepted direct accepted]
          simp only [readable,exit,rollback_bind]
        exact failsUndone_unlinked partition neutral_skip failed f kept left
      · obtain ⟨writableBuf,writable⟩ := Option.isSome_iff_exists.mp writable
        have both : call.minDescsRequired = 2 := by
          simp [SubmitCall.minDescsRequired,readable,writable]
        have enough := (accepted_enough direct accepted).2
        have lost := not_failsUndone_lost partition direct accepted readable writable attached
          complete empty
        exact iff_of_false lost (by omega)
    · obtain ⟨q',exit,final,agree⟩ := submitDeviceReadable_unattached unused buf call.completion
        call.readable call.minDescsRequired attached
      rw [failsUndone_returned (buildChain_readable_left direct accepted readable exit) attached]
      exact iff_of_true (Undone.of_agree partition final (.refl _) agree) (.inl ⟨rfl,attached⟩)

def unpreparedWrite : SubmitCall :=
  { writeSector 3 with readable := ⟨.noMemory, sector.genIOVMSegments⟩ }

theorem unemitted_failure_undone_unprepared :
    FailsUndone (initialQueue 4 true false (readyCalls 4 64)) unpreparedWrite [0,1,2,3] [] := by
  have partition : Partition 4 (initialQueue 4 true false (readyCalls 4 64)) [0,1,2,3] [] [] :=
    partition_initial (by decide) true false (readyCalls 4 64)
  have fails : FailsUnemitted (initialQueue 4 true false (readyCalls 4 64)) unpreparedWrite :=
    ⟨by decide,.inl (by decide)⟩
  apply (unemitted_failure_undone_iff partition rfl fails).mpr
  exact .inl ⟨rfl,by decide⟩

def unpreparedRead : SubmitCall :=
  ⟨none, some ⟨3, 512⟩, ⟨1, 2, 3⟩, sector.dma, ⟨.noMemory, sector.genIOVMSegments⟩, sector.dma⟩

/-- Of four unused descriptors, the failed call makes seven. -/
theorem unemitted_failure_corrupts :
    ∃ queue, setupVirtqueue 4 0 true 0 (readyCalls 4 64) = .ok queue ∧
      Partition 4 queue [0,1,2,3] [] [] ∧ queue.indirectDescriptors = false ∧
      FailsUnemitted queue unpreparedRead ∧
      (submitBuffers queue unpreparedRead).map
        (fun ret => (ret.result, ret.queue.numUnusedDescriptors)) = some (.noMemory, 7) ∧
      ¬FailsUndone queue unpreparedRead [0,1,2,3] [] := by
  have returned : (submitBuffers (initialQueue 4 true false (readyCalls 4 64)) unpreparedRead).map
      (fun ret => (ret.result, ret.queue.numUnusedDescriptors)) = some (.noMemory, 7) := by
    decide +kernel
  refine ⟨initialQueue 4 true false (readyCalls 4 64),rfl,
    partition_initial (n := 4) (by decide) true false (readyCalls 4 64),rfl,
    ⟨by decide,.inl (by decide)⟩,returned,?_⟩
  rintro ⟨ret,submitted,_,undone⟩
  rw [submitted] at returned
  have counted : ret.queue.numUnusedDescriptors = 7 := (Prod.mk.inj (Option.some.inj returned)).2
  have same := undone.count
  rw [counted] at same
  exact absurd same (by decide)

def FailsDetached (q : VirtioVirtqueue) (call : SubmitCall) (free : List Nat)
    (inflight : List Request) : Prop :=
  ∃ ret, submitBuffers q call = some ret ∧ ret.result ≠ .success ∧
    Undone q ret.queue free inflight ∧
    ∀ i ∈ attachedBy q call free, ret.queue.dma i = (false, none)

/-- The command of a descriptor that the rollback of the writable half starts from, or
that this half has reserved, is free afterwards. -/
theorem writable_detached (unused : Unused chain.queue (j :: rest))
    (attached : dma.setMemoryDescriptor = .success)
    (start : int16 (if first = uint16Max then uint16 j else first) = (s : Nat))
    (used : s ≠ j → (chain.queue.dma s).1 = true)
    (exit : submitDeviceWritable first chain buf completion dma = .returned result q')
    (one : k = s ∨ k = j) : q'.dma k = (false,none) := by
  have outcome := submitDeviceWritable_dma unused first buf completion dma
  rw [exit] at outcome
  apply outcome.rolledBack start
  · exact fun different => ⟨attached,used different⟩
  · intro notStart notReserved
    rcases one with same | same
    · exact absurd same notStart
    · exact absurd same notReserved

section Emitted

variable {q : VirtioVirtqueue} {call : SubmitCall} {i : Nat} {free : List Nat}
variable (partition : Partition n q (i :: free) inflight lost)
variable (direct : q.indirectDescriptors = false) (accepted : ¬RefusedEarly q call)
include partition direct accepted

theorem emitted_writable_only (readable : call.readableBuffer = none)
    (writable : call.writableBuffer = some buf)
    (attached : call.writable.setMemoryDescriptor = .success)
    (emitted : writableSegments q call ≠ []) (incomplete : (writableWalk q call).incomplete buf = true) :
    FailsDetached q call (i :: free) inflight := by
  have unused := partition.unused
  have small : i < 32768 := unused.small i List.mem_cons_self
  have fits : (i :: free).length ≤ q.numEntries := by rw [partition.size]; exact partition.fits
  have none : readableSegments q call = [] := by simp [readableSegments,readable]
  have walk := writableWalk_eq unused (by rw [none]; exact unused)
  rw [writableSegments_walk writable] at emitted
  have walked := submitDeviceWritable_walked (building_nothing unused) rfl fits rfl buf
    call.completion call.writable attached walk emitted
  rw [if_pos incomplete] at walked
  obtain ⟨q',kept,exit,final,perm,agree⟩ := walked
  have left : buildChain q call = .returned (writableWalk q call).failure q' := by
    rw [buildChain_writable_only direct accepted readable writable]
    exact congrArg (Phase.bind · _) exit
  refine ⟨_,submitBuffers_returned left,GenOutcome.failure_ne _,
    Undone.of_agree partition final perm agree,fun k member => ?_⟩
  obtain rfl : k = i := by simpa [attachedBy,readable] using member
  have start : int16 (if uint16Max = uint16Max then uint16 k else uint16Max) = k := by
    rw [if_pos rfl,uint16_cast k (by omega),int16_cast k small]
  exact writable_detached unused attached start (fun different => absurd rfl different) exit
    (.inl rfl)

theorem emitted_readable (readable : call.readableBuffer = some buf)
    (attached : call.readable.setMemoryDescriptor = .success)
    (emitted : readableSegments q call ≠ []) (incomplete : (readableWalk q call).incomplete buf = true) :
    FailsDetached q call (i :: free) inflight := by
  have unused := partition.unused
  have fits : (i :: free).length ≤ q.numEntries := by rw [partition.size]; exact partition.fits
  rw [readableSegments_walk readable] at emitted
  have walked := submitDeviceReadable_walked unused fits buf call.completion call.readable
    call.minDescsRequired attached rfl emitted
  have failing : (call.readable.genIOVMSegments.emit
      (q.numUnusedDescriptors - (call.minDescsRequired - 1))).incomplete buf = true := incomplete
  rw [if_pos failing] at walked
  obtain ⟨q',kept,exit,final,perm,agree⟩ := walked
  have left := buildChain_readable_left direct accepted readable exit
  refine ⟨_,submitBuffers_returned left,GenOutcome.failure_ne _,
    Undone.of_agree partition final perm agree,fun k member => ?_⟩
  obtain rfl : k = i := by simpa [attachedBy,readable,incomplete] using member
  have outcome := submitDeviceReadable_dma unused buf call.completion call.readable
    call.minDescsRequired
  rw [exit] at outcome
  rw [outcome.2,if_pos attached,Function.update_self]

theorem emitted_both (readable : call.readableBuffer = some buf)
    (attached : call.readable.setMemoryDescriptor = .success)
    (emitted : readableSegments q call ≠ []) (complete : (readableWalk q call).incomplete buf = false)
    (writable : call.writableBuffer = some writableBuf)
    (writableAttached : call.writable.setMemoryDescriptor = .success)
    (someWritable : writableSegments q call ≠ [])
    (incomplete : (writableWalk q call).incomplete writableBuf = true) :
    FailsDetached q call (i :: free) inflight := by
  have unused := partition.unused
  have small : i < 32768 := unused.small i List.mem_cons_self
  have fits : (i :: free).length ≤ q.numEntries := by rw [partition.size]; exact partition.fits
  obtain ⟨chain,completed,clear,building⟩ :=
    readable_completed unused fits readable attached complete
  obtain ⟨j,rest,pending⟩ := readable_leaves unused readable writable
    (accepted_enough direct accepted).2
  have after := building.unused clear
  have walk := writableWalk_eq unused after
  have split := List.take_append_drop (readableSegments q call).length (i :: free)
  rw [pending] at building split after
  rw [writableSegments_walk writable] at someWritable
  have walked := submitDeviceWritable_walked building clear (by rw [split]; exact fits)
    (head_of_readable emitted) writableBuf call.completion call.writable writableAttached walk
    someWritable
  rw [if_pos incomplete,split] at walked
  obtain ⟨q',kept,exit,final,perm,agree⟩ := walked
  have left : buildChain q call = .returned (writableWalk q call).failure q' := by
    rw [buildChain_both direct accepted readable writable completed,exit,Phase.bind_returned]
  have prepared : Agree (i :: free) q (readablePrepared q i buf call.completion) :=
    agree_of_reserved q _ List.mem_cons_self
  refine ⟨_,submitBuffers_returned left,GenOutcome.failure_ne _,
    Undone.of_agree partition final perm (prepared.trans agree),fun k member => ?_⟩
  have one : k = i ∨ k = j := by
    simpa [attachedBy,readable,complete,pending] using member
  have first := submitDeviceReadable_dma unused buf call.completion call.readable
    call.minDescsRequired
  rw [completed] at first
  apply writable_detached (s := i) after writableAttached _ _ exit one
  · rw [if_neg (by simp only [uint16Max]; omega),int16_cast i small]
  · intro _
    rw [first.2.2.2]
    simp

end Emitted

/-- A direct submission that fails after it has emitted a segment of the buffer in
question reports an error and undoes itself, with every command it has attached free. -/
theorem emitted_failure_undone (partition : Partition n q free inflight lost)
    (direct : q.indirectDescriptors = false) (fails : FailsEmitted q call) :
    FailsDetached q call free inflight := by
  obtain ⟨accepted,fails⟩ := fails
  obtain ⟨i,free,rfl⟩ := accepted_cons direct partition.unused accepted
  cases readable : call.readableBuffer with
  | none =>
    simp only [readable] at fails
    obtain ⟨attached,some,buf,writable,incomplete⟩ := fails
    exact emitted_writable_only partition direct accepted readable writable attached some incomplete
  | some buf =>
    simp only [readable] at fails
    obtain ⟨attached,some,fails⟩ := fails
    cases walked : (readableWalk q call).incomplete buf with
    | true => exact emitted_readable partition direct accepted readable attached some walked
    | false =>
      rw [walked] at fails
      obtain ⟨writableAttached,someWritable,writableBuf,writable,incomplete⟩ :=
        fails.resolve_left Bool.false_ne_true
      exact emitted_both partition direct accepted readable attached some walked writable
        writableAttached someWritable incomplete

def halfMapped : SubmitCall :=
  ⟨some ⟨1, 612⟩, some ⟨2, 1024⟩, ⟨1, 2, 3⟩,
    (ScatterList.mk [⟨8192, 512⟩, ⟨20480, 100⟩] (by decide)).dma, sector.dma, sector.dma⟩

theorem emitted_failure_undone_halfMapped :
    FailsDetached (initialQueue 4 true false (readyCalls 4 64)) halfMapped [0,1,2,3] [] := by
  refine emitted_failure_undone (partition_initial (n := 4) (by decide) true false
    (readyCalls 4 64)) rfl ⟨by decide,?_⟩
  refine ⟨rfl,by decide,.inr ⟨rfl,by decide,_,rfl,by decide⟩⟩

/-- An indirect submission that finds an unused descriptor and is then refused for its
arguments: it describes no buffer, or more than the table has room for. -/
def RefusedReserved (q : VirtioVirtqueue) (call : SubmitCall) : Prop :=
  0 ≤ q.firstUnusedDescriptorIndex ∧
    (call.minDescsRequired > tableSlots q q.firstUnusedDescriptorIndex.toNat ∨
      call.minDescsRequired = 0)

def FailureUndone (q : VirtioVirtqueue) (call : SubmitCall) (free : List Nat)
    (inflight : List Request) : Prop :=
  ∃ ret, submitBuffers q call = some ret ∧ (ret.result ≠ .success → Undone q ret.queue free inflight)

theorem buildChain_indirect (indirect : q.indirectDescriptors = true) (call : SubmitCall) :
    buildChain q call = buildIndirectChain q call := by
  simp [buildChain,indirect]

theorem indirect_failure_undone_iff (partition : Partition n q free inflight lost)
    (indirect : q.indirectDescriptors = true) (call : SubmitCall) :
    FailureUndone q call free inflight ↔ ¬RefusedReserved q call := by
  have unused := partition.unused
  have chain := buildChain_indirect indirect call
  cases free with
  | nil =>
    have first : q.firstUnusedDescriptorIndex = -1 := unused.listed
    rw [buildIndirectChain_empty unused] at chain
    have undone := Undone.of_agree partition unused (.refl _) (Agree.refl _ q)
    exact iff_of_true ⟨_,submitBuffers_returned chain,fun _ => undone⟩
      (fun refused => absurd refused.1 (by omega))
  | cons i rest =>
    have first : q.firstUnusedDescriptorIndex = i := unused.listed.1
    by_cases refused : call.minDescsRequired > tableSlots q i ∨ call.minDescsRequired = 0
    · obtain ⟨result,failed,exit⟩ := buildIndirectChain_refused unused call refused
      have returned := submitBuffers_returned (chain.trans exit)
      refine iff_of_false ?_ (not_not.mpr ⟨by omega,by simpa [first] using refused⟩)
      rintro ⟨ret,submitted,undone⟩
      obtain rfl := Option.some.inj (returned.symm.trans submitted)
      have same := (undone failed).count
      rw [unused.tableReserved.count,unused.count,List.length_cons] at same
      omega
    · obtain ⟨fits,nonempty⟩ := not_or.mp refused
      refine iff_of_true ?_ (fun bad => refused (by simpa [first] using bad.2))
      have outcome := buildIndirectChain_accepted unused call fits nonempty
      rw [← chain] at outcome
      cases exit : buildChain q call with
      | stuck =>
        rw [exit] at outcome
        exact outcome.elim
      | next value =>
        obtain ⟨head,q'⟩ := value
        have submitted : submitBuffers q call = some
            ⟨.success,virtioVirtqueueAddDescriptorToRing q' head,
              notifies (virtioVirtqueueAddDescriptorToRing q' head)⟩ := by
          simp [submitBuffers,exit]
        exact ⟨_,submitted,fun failed => absurd rfl failed⟩
      | returned result q' =>
        rw [exit] at outcome
        exact ⟨_,submitBuffers_returned exit,fun _ =>
          Undone.of_agree partition outcome.2.1 (.refl _) (outcome.1.mono (by simp))⟩

theorem Undone.partition (partition : Partition n q free inflight lost)
    (undone : Undone q q' free inflight) (size : q'.numEntries = q.numEntries) :
    ∃ kept, kept.Perm free ∧ Partition n q' kept inflight lost := by
  obtain ⟨kept,unused,perm⟩ := undone.unused
  refine ⟨kept,perm,size.trans partition.size,unused,?_,fun r member => (undone.chains r member).1⟩
  exact (perm.append_right _).trans partition.places

theorem Undone.trans (first : Undone q q' free inflight) (perm : kept.Perm free)
    (second : Undone q' q'' kept inflight) : Undone q q'' free inflight where
  unused := by
    obtain ⟨left,unused,same⟩ := second.unused
    exact ⟨left,unused,same.trans perm⟩
  count := second.count.trans first.count
  chains r member := by
    refine ⟨(second.chains r member).1,fun i inside => ?_⟩
    obtain ⟨buffers,table⟩ := (first.chains r member).2 i inside
    obtain ⟨buffers',table'⟩ := (second.chains r member).2 i inside
    exact ⟨buffers'.trans buffers,table'.trans table⟩
  headIndex := second.headIndex.trans first.headIndex

theorem submitBuffers_mode (partition : Partition n q free inflight lost)
    (sound : ¬Corrupting q call) (returned : submitBuffers q call = some ret) :
    ret.queue.numEntries = q.numEntries ∧
      ret.queue.indirectDescriptors = q.indirectDescriptors := by
  have fits : free.length ≤ q.numEntries := partition.size.symm ▸ partition.fits
  have outcome := buildChain_spec partition.unused fits sound
  rcases submitBuffers_cases returned with ⟨head,q',built,_,published⟩ | left
  · rw [built] at outcome
    obtain ⟨_,_,_,_,_,_,_,agree⟩ := outcome
    rw [published]
    exact ⟨agree.numEntries,agree.indirectDescriptors⟩
  · rw [left] at outcome
    obtain ⟨_,_,_,_,agree,_⟩ := outcome
    exact ⟨agree.numEntries,agree.indirectDescriptors⟩

theorem not_corrupting_indirect (indirect : q.indirectDescriptors = true) : ¬Corrupting q call := by
  rintro ⟨direct,_⟩
  simp [indirect] at direct

theorem releaseChain_indirect
    (released : releaseChain clearCompleted steps start q = some q') :
    q'.indirectDescriptors = q.indirectDescriptors := by
  apply releaseChain_keeps (fun queue => queue.indirectDescriptors = q.indirectDescriptors) _
    released rfl
  intro i queue same
  exact (neutral_clearCompleted.agree i queue).indirectDescriptors.trans same

theorem MachineInv.mode (inv : MachineInv n lost m) (sound : Sound m a)
    (taken : step a m = some m') :
    m'.queue.indirectDescriptors = m.queue.indirectDescriptors := by
  by_cases submitting : ∃ call, a = .submit call
  · obtain ⟨call,rfl⟩ := submitting
    obtain ⟨free,partition⟩ := inv.partition
    have fits : free.length ≤ m.queue.numEntries := partition.size.symm ▸ partition.fits
    have outcome := buildChain_spec partition.unused fits (sound call rfl)
    obtain ⟨_,⟨head,queue,built,rfl⟩ | ⟨result,queue,left,rfl⟩⟩ := Machine.submit_cases taken
    · rw [built] at outcome
      obtain ⟨_,_,_,_,_,_,_,agree⟩ := outcome
      exact agree.indirectDescriptors
    · rw [left] at outcome
      obtain ⟨_,_,_,_,agree,_⟩ := outcome
      exact agree.indirectDescriptors
  by_cases advancing : a = .advance
  · subst a
    obtain ⟨_,call,result,_,moved,rfl⟩ := Machine.advance_cases taken
    rcases processCompletedRequests_cases moved with ⟨_,_,_,indirect⟩ |
      ⟨current,next,q',_,_,released,rfl⟩
    · exact indirect
    · exact releaseChain_indirect released
  · exact (inv.untouched taken (not_exists.mp submitting) advancing).indirect

structure IndirectInv (n : Nat) (m : Machine) : Prop where
  machine : ∃ lost, MachineInv n lost m
  indirect : m.queue.indirectDescriptors = true

theorem IndirectInv.keeps (inv : IndirectInv n m) (taken : step a m = some m') :
    IndirectInv n m' := by
  obtain ⟨lost,machine⟩ := inv.machine
  have sound : Sound m a := fun call _ => not_corrupting_indirect inv.indirect
  obtain ⟨more,kept,_⟩ := machine.keeps taken (.inl sound)
  exact ⟨⟨_,kept⟩,(machine.mode sound taken).trans inv.indirect⟩

def submitNext (call : SubmitCall) (q : VirtioVirtqueue) : Option VirtioVirtqueue :=
  (submitBuffers q call).map SubmitReturn.queue

def FailsKept (q : VirtioVirtqueue) (call : SubmitCall) : Prop :=
  ¬Succeeds q call ∧ ¬RefusedReserved q call

theorem failures_undone (partition : Partition n q free inflight lost)
    (indirect : q.indirectDescriptors = true) (run : Run submitNext FailsKept q calls q') :
    Undone q q' free inflight := by
  have kept : Undone q q' free inflight ∧ q'.numEntries = q.numEntries ∧
      q'.indirectDescriptors = q.indirectDescriptors := by
    apply Run.keeps (fun q' => Undone q q' free inflight ∧ q'.numEntries = q.numEntries ∧
      q'.indirectDescriptors = q.indirectDescriptors) _ run
    · exact ⟨Undone.of_agree partition partition.unused (.refl _) (Agree.refl _ q),rfl,rfl⟩
    · rintro before call after ⟨failed,good⟩ taken ⟨undone,size,mode⟩
      obtain ⟨left,perm,partition'⟩ := undone.partition partition size
      obtain ⟨ret,returned,untouched⟩ :=
        (indirect_failure_undone_iff partition' (mode.trans indirect) call).mpr good
      have frame := submitBuffers_mode partition' (not_corrupting_indirect (mode.trans indirect))
        returned
      have unsuccessful : ret.result ≠ .success := by
        intro success
        apply failed
        simp [Succeeds,returned,success]
      obtain rfl : ret.queue = after := by simpa [submitNext,returned] using taken
      exact ⟨undone.trans perm (untouched unsuccessful),frame.1.trans size,frame.2.trans mode⟩
  exact kept.1

/-- In every reachable state of a queue with indirect descriptors, a call that does not
succeed leaves no trace exactly if it is not refused for its arguments after it has
reserved a descriptor, and any sequence of such calls leaves the queue as large as it
was. -/
theorem indirect_failures_undone (n activeFeatures : Nat) (interruptsEnabled : Bool)
    (indirectDescPerRequest : Nat) (calls : SetupCalls) (queue : VirtioVirtqueue)
    (size : n < 65536)
    (built : setupVirtqueue n activeFeatures interruptsEnabled indirectDescPerRequest calls =
      .ok queue) (indirect : queue.indirectDescriptors = true) (actions : List Action) (m : Machine)
    (run : Run step (fun _ _ => True) (Machine.start queue) actions m) :
    ∃ free lost, Partition n m.queue free m.inflight lost ∧
      (∀ call, FailureUndone m.queue call free m.inflight ↔ ¬RefusedReserved m.queue call) ∧
      ∀ submissions q', Run submitNext FailsKept m.queue submissions q' →
        Undone m.queue q' free m.inflight := by
  have inv : IndirectInv n m := Run.keeps (IndirectInv n)
    (fun _ taken inv => inv.keeps taken) run ⟨⟨[],machineInv_setup size built⟩,indirect⟩
  obtain ⟨lost,machine⟩ := inv.machine
  obtain ⟨free,partition⟩ := machine.partition
  refine ⟨free,lost,partition,?_,?_⟩
  · exact fun call => indirect_failure_undone_iff partition inv.indirect call
  · exact fun submissions q' run => failures_undone partition inv.indirect run

def tabledSector : SubmitCall :=
  { writeSector 3 with table := (ScatterList.mk [⟨12288, 16⟩] (by simp)).dma }

/-- After one request has been published, another fails half way and leaves no trace. -/
theorem indirect_failures_undone_halfMapped :
    ∃ m free, Run step (fun _ _ => True)
        (Machine.start (initialQueue 4 true true (readyCalls 4 64)))
        [.submit tabledSector, .publish, .publish, .publish] m ∧
      Partition 4 m.queue free m.inflight [] ∧ free.length = 3 ∧
      (submitBuffers m.queue halfMapped).map SubmitReturn.result = some .internalError ∧
      FailureUndone m.queue halfMapped free m.inflight := by
  have played : (play step (fun _ _ => true) [.submit tabledSector, .publish, .publish, .publish]
      (Machine.start (initialQueue 4 true true (readyCalls 4 64)))).map
        (fun m => (m.inflight.map Request.descs,m.queue.numUnusedDescriptors,
          decide (halfMapped.minDescsRequired >
            tableSlots m.queue m.queue.firstUnusedDescriptorIndex.toNat),
          (submitBuffers m.queue halfMapped).map SubmitReturn.result)) =
      some ([[0]],3,false,some .internalError) := by decide +kernel
  obtain ⟨m,played,observed⟩ := Option.map_eq_some_iff.mp played
  have run : Run step (fun _ _ => True) _ _ m := run_of_play (fun _ _ _ => trivial) played
  simp only [Prod.mk.injEq,decide_eq_false_iff_not] at observed
  obtain ⟨descs,count,fits,result⟩ := observed
  obtain ⟨free,lost,partition,undone,_⟩ := indirect_failures_undone 4 ringIndirectDesc true 4
    (readyCalls 4 64) _ (by decide) rfl rfl _ m run
  have length : free.length = 3 := partition.unused.count.symm.trans count
  have owned : (m.inflight.flatMap Request.descs).length = 1 := by
    rw [List.flatMap_def,descs]
    rfl
  have total := partition.places.length_eq
  simp only [List.length_append,List.length_range] at total
  obtain rfl : lost = [] := List.length_eq_zero_iff.mp (by omega)
  refine ⟨m,free,run,partition,length,result,(undone halfMapped).mpr ?_⟩
  rintro ⟨_,many | none⟩
  · exact fits many
  · exact absurd none (by decide)

def bufferless : SubmitCall :=
  ⟨none, none, ⟨1, 2, 3⟩, sector.dma, sector.dma, sector.dma⟩

/-- Such a request is refused, and yet takes a descriptor each time: after four such calls a queue of
four entries is busy for good. -/
theorem bufferless_loses_descriptors :
    ∃ queue, setupVirtqueue 4 ringIndirectDesc true 4 (readyCalls 4 64) = .ok queue ∧
      queue.indirectDescriptors = true ∧
      (submitBuffers queue bufferless).map (fun ret => (ret.result, ret.queue.numUnusedDescriptors)) =
        some (.badArgument, 3) ∧
      (∀ free inflight, ¬FailureUndone queue bufferless free inflight) ∧
      ∃ busy, Run submitNext (fun q call => ¬Succeeds q call) queue
          [bufferless, bufferless, bufferless, bufferless] busy ∧
        (submitBuffers busy (writeSector 3)).map SubmitReturn.result = some .busy := by
  have returned : (submitBuffers (initialQueue 4 true true (readyCalls 4 64)) bufferless).map
      (fun ret => (ret.result, ret.queue.numUnusedDescriptors)) = some (.badArgument, 3) := by
    decide +kernel
  have played : (play submitNext
      (fun q call => (submitBuffers q call).map SubmitReturn.result != some .success)
      [bufferless, bufferless, bufferless, bufferless]
      (initialQueue 4 true true (readyCalls 4 64))).map
        (fun q => (submitBuffers q (writeSector 3)).map SubmitReturn.result) =
      some (some .busy) := by decide +kernel
  obtain ⟨busy,played,refused⟩ := Option.map_eq_some_iff.mp played
  refine ⟨initialQueue 4 true true (readyCalls 4 64),rfl,rfl,returned,?_,busy,?_,refused⟩
  · rintro free inflight ⟨ret,submitted,undone⟩
    rw [submitted] at returned
    obtain ⟨result,counted⟩ := Prod.mk.inj (Option.some.inj returned)
    have same := (undone (by rw [result]; decide)).count
    rw [counted] at same
    exact absurd same (by decide)
  · apply run_of_play _ played
    intro q call checked
    simpa [Succeeds] using checked

end VirtioOsx
