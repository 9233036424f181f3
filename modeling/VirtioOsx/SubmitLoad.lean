import VirtioOsx.CompletionRuns

/-! What a direct submission returns when its buffers are mapped without failures and only
the number of unused descriptors limits how far they are emitted. -/
namespace VirtioOsx

open Runs

/-- How a half ends, once its command has been set up: it is cut off exactly if the
emission was not complete. -/
def Phase.Ends (complete : Bool) (failure : IOReturn) : Phase α → Prop
  | .next _ => complete = true
  | .returned result _ => complete = false ∧ result = failure
  | .stuck => True

theorem rollback_ends (visit : Nat → VirtioVirtqueue → VirtioVirtqueue) (start : Int)
    (q : VirtioVirtqueue) (result : IOReturn) :
    (rollback visit result start q : Phase α).Ends false result := by
  unfold rollback
  split
  · trivial
  · exact ⟨rfl,rfl⟩

theorem submitDeviceReadable_ends (q : VirtioVirtqueue) (buf : IOMemoryDescriptor)
    (completion : VirtioCompletion) (dma : DmaCalls) (min : Nat)
    (attached : dma.setMemoryDescriptor = .success)
    (outcome : dma.genIOVMSegments.emit (q.numUnusedDescriptors - (min - 1)) = generated) :
    (submitDeviceReadable q buf completion dma min).Ends (!generated.incomplete buf)
      generated.failure := by
  unfold submitDeviceReadable
  dsimp only
  split
  · trivial
  rw [if_neg (not_not.mpr attached),outcome]
  split
  · trivial
  split
  · rename_i short
    rw [short]
    exact rollback_ends _ _ _ _
  · rename_i whole
    simp only [Phase.Ends,whole,Bool.not_false]

theorem submitDeviceWritable_ends (first : Nat) (chain : VringDescChain) (buf : IOMemoryDescriptor)
    (completion : VirtioCompletion) (dma : DmaCalls)
    (attached : dma.setMemoryDescriptor = .success)
    (outcome : dma.genIOVMSegments.emit chain.queue.numUnusedDescriptors = generated) :
    (submitDeviceWritable first chain buf completion dma).Ends (!generated.incomplete buf)
      generated.failure := by
  unfold submitDeviceWritable
  dsimp only
  split
  · trivial
  rw [if_neg (not_not.mpr attached),outcome]
  split
  · trivial
  split
  · rename_i short
    rw [short]
    exact rollback_ends _ _ _ _
  · rename_i whole
    simp only [Phase.Ends,whole,Bool.not_false]

/-- The buffers of a call consist of these segments, and their commands stop only at the
number of segments they are allowed. -/
structure Fragmented (call : SubmitCall) (r w : ScatterList) : Prop where
  readable : call.readable = r.dma
  writable : call.writable = w.dma
  readableLength : ∀ buf, call.readableBuffer = some buf → buf.length = byteCount r.segments
  writableLength : ∀ buf, call.writableBuffer = some buf → buf.length = byteCount w.segments
  readableAbsent : call.readableBuffer = none → r.segments = []
  writableAbsent : call.writableBuffer = none → w.segments = []

theorem describedBuffer_pos (described : describedBuffer given = some buf) : 0 < buf.length := by
  have kept := (Option.filter_eq_some_iff.mp described).2
  simp only [bne_iff_ne,ne_eq] at kept
  omega

theorem segments_pos (described : describedBuffer given = some buf)
    (size : buf.length = byteCount segments) : 0 < segments.length := by
  have positive := describedBuffer_pos described
  rw [size] at positive
  apply List.length_pos_iff.mpr
  rintro rfl
  simp [byteCount] at positive

/-- An emission is cut off exactly if the buffer has more segments than allowed. -/
theorem ScatterList.complete_eq (list : ScatterList) (size : buf.length = byteCount list.segments)
    (some : 0 < list.segments.length) (limit : Nat) :
    (!(list.genIOVMSegments.emit limit).incomplete buf) =
      decide (list.segments.length ≤ limit) := by
  have covered := @ScatterList.byteCount_take limit list
  rw [Bool.eq_iff_iff,Bool.not_eq_true',decide_eq_true_iff]
  simp only [GenOutcome.incomplete,ScatterList.genIOVMSegments,size,Bool.or_eq_false_iff,
    bne_eq_false_iff_eq,decide_eq_false_iff_not,List.length_take,true_and,covered]
  omega

theorem Phase.Ends.bind {failure : IOReturn} {phase : Phase α} (ends : phase.Ends first failure)
    (rest : α → Phase β) (later : ∀ value, phase = .next value → (rest value).Ends second failure) :
    (phase.bind rest).Ends (first && second) failure := by
  cases phase with
  | stuck => trivial
  | returned result queue =>
    obtain ⟨rfl,rfl⟩ := ends
    exact ⟨rfl,rfl⟩
  | next value =>
    obtain rfl : first = true := ends
    rw [Phase.bind_next,Bool.true_and]
    exact later value rfl

theorem Phase.Ends.finish {failure : IOReturn} {phase : Phase α} (ends : phase.Ends whole failure)
    (f : α → β) : (phase.bind fun value => .next (f value)).Ends whole failure := by
  cases phase <;> exact ends

/-- The readable half leaves what it has not emitted. -/
theorem submitDeviceReadable_remaining (unused : Unused q (i :: free))
    (fits : (i :: free).length ≤ q.numEntries)
    (emitted : (dma.genIOVMSegments.emit (q.numUnusedDescriptors - (others - 1))).segments =
      segments) (some : segments ≠ [])
    (next : submitDeviceReadable q buf completion dma others = .next (first, chain)) :
    chain.queue.numUnusedDescriptors = q.numUnusedDescriptors - segments.length := by
  have outcome := submitDeviceReadable_spec unused fits buf completion dma others
    fun _ empty => absurd (emitted.symm.trans empty) some
  rw [next,emitted] at outcome
  obtain ⟨_,_,clear,building⟩ := outcome
  rw [(building.unused clear).count,List.length_drop,unused.count]

section

variable {r w : ScatterList}

theorem Fragmented.readable_ends (fragmented : Fragmented call r w)
    (given : call.readableBuffer = some buf) (q : VirtioVirtqueue) (min : Nat) :
    (submitDeviceReadable q buf call.completion call.readable min).Ends
      (decide (r.segments.length ≤ q.numUnusedDescriptors - (min - 1))) .internalError := by
  have size := fragmented.readableLength buf given
  rw [fragmented.readable,← r.complete_eq size (segments_pos given size)]
  exact submitDeviceReadable_ends q buf call.completion r.dma min rfl rfl

theorem Fragmented.writable_ends (fragmented : Fragmented call r w)
    (given : call.writableBuffer = some buf) (first : Nat) (chain : VringDescChain) :
    (submitDeviceWritable first chain buf call.completion call.writable).Ends
      (decide (w.segments.length ≤ chain.queue.numUnusedDescriptors)) .internalError := by
  have size := fragmented.writableLength buf given
  rw [fragmented.writable,← w.complete_eq size (segments_pos given size)]
  exact submitDeviceWritable_ends first chain buf call.completion w.dma rfl rfl

/-- Past the three checks, a request goes through exactly if all its segments fit. -/
theorem Fragmented.ends (fragmented : Fragmented call r w) (unused : Unused q free)
    (fits : free.length ≤ q.numEntries) (required : call.minDescsRequired ≠ 0)
    (enough : call.minDescsRequired ≤ q.numUnusedDescriptors) :
    (buildDirectChain q call).Ends
      (decide (r.segments.length + w.segments.length ≤ q.numUnusedDescriptors))
      .internalError := by
  have count := unused.count
  unfold buildDirectChain
  rw [if_neg (by omega),if_neg required,if_neg (by omega)]
  cases readable : call.readableBuffer with
  | none =>
    have absent := fragmented.readableAbsent readable
    cases writable : call.writableBuffer with
    | none => simp [SubmitCall.minDescsRequired,readable,writable] at required
    | some buf =>
      rw [Phase.bind_next]
      have ends := (fragmented.writable_ends writable uint16Max
        ⟨q,uint16Max,uint16Max,false⟩).finish fun v => (v.1, v.2.queue)
      simpa [absent] using ends
  | some buf =>
    have size := fragmented.readableLength buf readable
    have some := segments_pos readable size
    have first := fragmented.readable_ends readable q call.minDescsRequired
    cases writable : call.writableBuffer with
    | none =>
      have absent := fragmented.writableAbsent writable
      have one : call.minDescsRequired = 1 := by
        simp [SubmitCall.minDescsRequired,readable,writable]
      have ends := first.finish fun v => (v.1, v.2.queue)
      simpa [absent,one] using ends
    | some writableBuf =>
      have two : call.minDescsRequired = 2 := by
        simp [SubmitCall.minDescsRequired,readable,writable]
      obtain ⟨i,rest,rfl⟩ := unused.exists_cons (by omega)
      have other := segments_pos writable (fragmented.writableLength writableBuf writable)
      have nonempty : r.segments.take (q.numUnusedDescriptors - (call.minDescsRequired - 1)) ≠ [] := by
        rw [← List.length_pos_iff,List.length_take]
        omega
      have later : ∀ value, submitDeviceReadable q buf call.completion call.readable
          call.minDescsRequired = .next value →
          ((submitDeviceWritable value.1 value.2 writableBuf call.completion call.writable).bind
            fun v => .next (v.1, v.2.queue)).Ends
            (decide (w.segments.length ≤ q.numUnusedDescriptors -
              (r.segments.take (q.numUnusedDescriptors - (call.minDescsRequired - 1))).length))
            .internalError := by
        rintro ⟨head,chain⟩ next
        have remaining := submitDeviceReadable_remaining unused fits
          (by rw [fragmented.readable]; rfl) nonempty next
        have second := fragmented.writable_ends writable head chain
        rw [remaining] at second
        exact second.finish _
      have whole : decide (r.segments.length + w.segments.length ≤ q.numUnusedDescriptors) =
          (decide (r.segments.length ≤ q.numUnusedDescriptors - (call.minDescsRequired - 1)) &&
            decide (w.segments.length ≤ q.numUnusedDescriptors -
              (r.segments.take (q.numUnusedDescriptors - (call.minDescsRequired - 1))).length)) := by
        rw [Bool.eq_iff_iff,Bool.and_eq_true,decide_eq_true_iff,decide_eq_true_iff,
          decide_eq_true_iff,List.length_take,two]
        omega
      rw [whole]
      exact first.bind _ later

theorem Fragmented.min_le (fragmented : Fragmented call r w) :
    call.minDescsRequired ≤ r.segments.length + w.segments.length := by
  unfold SubmitCall.minDescsRequired
  cases readable : call.readableBuffer with
  | none =>
    cases writable : call.writableBuffer with
    | none => simp
    | some buf =>
      have := segments_pos writable (fragmented.writableLength buf writable)
      simp only [Option.isSome_none,Option.isSome_some,Bool.false_eq_true,if_true,if_false]
      omega
  | some buf =>
    have := segments_pos readable (fragmented.readableLength buf readable)
    cases writable : call.writableBuffer with
    | none =>
      simp only [Option.isSome_none,Option.isSome_some,Bool.false_eq_true,if_true,if_false]
      omega
    | some other =>
      have := segments_pos writable (fragmented.writableLength other writable)
      simp only [Option.isSome_some,if_true]
      omega

theorem Fragmented.required (fragmented : Fragmented call r w)
    (some : 0 < r.segments.length + w.segments.length) : call.minDescsRequired ≠ 0 := by
  intro none
  unfold SubmitCall.minDescsRequired at none
  have readable : call.readableBuffer = Option.none := by
    by_contra given
    simp [Option.isSome_iff_ne_none.mpr given] at none
  have writable : call.writableBuffer = Option.none := by
    by_contra given
    simp [Option.isSome_iff_ne_none.mpr given] at none
  rw [fragmented.readableAbsent readable,fragmented.writableAbsent writable] at some
  simp at some

/-- A first buffer that is mapped emits a segment, so its descriptor gets linked. -/
theorem Fragmented.linked (fragmented : Fragmented call r w)
    (enough : call.minDescsRequired ≤ q.numUnusedDescriptors) : ¬HeadUnlinked q call := by
  rintro ⟨several,unlinked⟩
  cases readable : call.readableBuffer with
  | some buf =>
    have first := segments_pos readable (fragmented.readableLength buf readable)
    simp only [readable,readableSegments,fragmented.readable] at unlinked
    have none := congrArg List.length unlinked.2
    simp only [ScatterList.dma,ScatterList.genIOVMSegments,List.length_take,List.length_nil] at none
    have one : 0 < call.minDescsRequired := by
      simp [SubmitCall.minDescsRequired,readable]
    omega
  | none =>
    cases writable : call.writableBuffer with
    | none => simp [readable,writable] at unlinked
    | some buf =>
      have first := segments_pos writable (fragmented.writableLength buf writable)
      simp only [readable,writable,writableSegments,readableSegments,fragmented.writable] at unlinked
      rcases unlinked with unattached | unlinked
      · exact unattached rfl
      · have none := congrArg List.length unlinked
        simp only [ScatterList.dma,ScatterList.genIOVMSegments,List.length_take,
          List.length_nil] at none
        omega

end

/-- A request that the empty queue would take is taken or put off, rather than failed,
exactly if its minimum is missing or all its segments have a descriptor. -/
theorem load_tolerated_iff (n : Nat) (q : VirtioVirtqueue) (free : List Nat)
    (inflight : List Request) (lost : List Nat) (partition : Partition n q free inflight lost)
    (direct : q.indirectDescriptors = false) (call : SubmitCall) (r w : ScatterList)
    (fragmented : Fragmented call r w) (some : 0 < r.segments.length + w.segments.length)
    (fits : r.segments.length + w.segments.length ≤ n) :
    ∃ ret, submitBuffers q call = Option.some ret ∧
      ((ret.result = .success ∨ ret.result = .busy) ↔
        q.numUnusedDescriptors < call.minDescsRequired ∨
        r.segments.length + w.segments.length ≤ q.numUnusedDescriptors) := by
  have unused := partition.unused
  have room : free.length ≤ q.numEntries := partition.size.symm ▸ partition.fits
  have required := fragmented.required some
  have least := fragmented.min_le
  have size := partition.size
  have mode : buildChain q call = buildDirectChain q call := by simp [buildChain,direct]
  simp only [submitBuffers,mode]
  by_cases few : q.numUnusedDescriptors < call.minDescsRequired
  · have busy : buildDirectChain q call = .returned .busy q := by
      unfold buildDirectChain
      rw [if_neg (by omega),if_neg required,if_pos few]
    rw [busy]
    exact ⟨_,rfl,by simp [few]⟩
  have ends := fragmented.ends unused room required (by omega)
  have outcome := buildDirectChain_spec unused room (fragmented.linked (by omega))
  revert ends outcome
  cases buildDirectChain q call with
  | stuck => exact fun _ outcome => outcome.elim
  | next value =>
    intro whole _
    have whole := decide_eq_true_iff.mp whole
    exact ⟨_,rfl,by simp [whole]⟩
  | returned result q' =>
    rintro ⟨short,failure⟩ _
    have short := decide_eq_false_iff_not.mp short
    refine ⟨_,rfl,?_⟩
    simp only [failure]
    simp [few,short]

def threeSectors : ScatterList := ⟨[⟨4096, 512⟩, ⟨16384, 512⟩, ⟨65536, 512⟩], by simp⟩

def noSectors : ScatterList := ⟨[], by simp⟩

def writeThreeSectors : SubmitCall :=
  ⟨some ⟨6, 1536⟩, none, ⟨1, 2, 6⟩, threeSectors.dma, noSectors.dma, sector.dma⟩

def twoWrites : List Action :=
  [.submit (writeSector 3), .publish, .publish, .publish, .submit (writeSector 4), .publish,
    .publish, .publish]

def twoSectors : ScatterList := ⟨[⟨4096, 512⟩, ⟨16384, 512⟩], by simp⟩

def writeTwoSectors : SubmitCall :=
  ⟨some ⟨5, 1024⟩, none, ⟨1, 2, 5⟩, twoSectors.dma, noSectors.dma, sector.dma⟩

theorem fragmented_two : Fragmented writeTwoSectors twoSectors noSectors where
  readable := rfl
  writable := rfl
  readableLength buf same := by rw [← Option.some.inj same]; rfl
  writableLength buf same := by cases same
  readableAbsent same := by cases same
  writableAbsent _ := rfl

/-- With two of four descriptors in use, a request takes the other two. -/
theorem load_tolerated_two_in_flight :
    ∃ m ret, Run step Successful (Machine.start (initialQueue 4 true false (readyCalls 4 64)))
        twoWrites m ∧ m.inflight.length = 2 ∧
      submitBuffers m.queue writeTwoSectors = some ret ∧
      (ret.result = .success ∨ ret.result = .busy) := by
  have played : (play step checkSuccessful twoWrites
      (Machine.start (initialQueue 4 true false (readyCalls 4 64)))).map
        (fun m => (m.inflight.length, m.queue.indirectDescriptors, m.queue.numUnusedDescriptors)) =
          some (2, false, 2) := by decide +kernel
  obtain ⟨m,played,seen⟩ := Option.map_eq_some_iff.mp played
  simp only [Prod.mk.injEq] at seen
  obtain ⟨busy,direct,left⟩ := seen
  have run := run_of_play successful_of_check played
  have inv := machineInv_gentle (machineInv_start (n := 4) (by decide) true false (readyCalls 4 64))
    (run.mono Successful.gentle)
  obtain ⟨free,partition⟩ := inv.partition
  obtain ⟨ret,returned,tolerated⟩ := load_tolerated_iff 4 m.queue free m.inflight [] partition direct
    writeTwoSectors twoSectors noSectors fragmented_two (by decide) (by decide)
  exact ⟨m,ret,run,busy,returned,tolerated.mpr (.inr (by rw [left]; decide))⟩

/-- With two of four descriptors in use, a request that the empty queue accepts fails with
an error that its client does not take for a full queue. -/
theorem load_fails_three_sectors :
    (submitBuffers (initialQueue 4 true false (readyCalls 4 64)) writeThreeSectors).map
      SubmitReturn.result = some .success ∧
    ∃ m, Run step Successful (Machine.start (initialQueue 4 true false (readyCalls 4 64)))
        twoWrites m ∧
      (submitBuffers m.queue writeThreeSectors).map SubmitReturn.result = some .internalError := by
  refine ⟨by decide +kernel,?_⟩
  have played : (play step checkSuccessful twoWrites
      (Machine.start (initialQueue 4 true false (readyCalls 4 64)))).map
        (fun m => (submitBuffers m.queue writeThreeSectors).map SubmitReturn.result) =
          some (some .internalError) := by decide +kernel
  obtain ⟨m,played,failed⟩ := Option.map_eq_some_iff.mp played
  exact ⟨m,run_of_play successful_of_check played,failed⟩

end VirtioOsx
