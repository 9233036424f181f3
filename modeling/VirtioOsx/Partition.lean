import VirtioOsx.SubmitIndirectOutcome
import VirtioOsx.SetupVirtqueue

/-! The partition of the descriptors into the unused list, the chains of the requests in
flight and the descriptors that a failed submission has lost. Submissions move
descriptors out of the unused list and completions move them back. -/
namespace VirtioOsx

/-- A request from the construction of its chain to the release of its descriptors. -/
structure Request where
  head : Nat
  descs : List Nat
  completion : VirtioCompletion
  deriving DecidableEq, Repr

structure Holding (q : VirtioVirtqueue) (r : Request) : Prop where
  starts : r.descs.head? = some r.head
  listed : Listed q.nextDesc r.head r.descs
  completion : q.completion r.head = r.completion

theorem Holding.head_mem (holding : Holding q r) : r.head ∈ r.descs :=
  List.mem_of_mem_head? holding.starts

theorem Holding.frame (holding : Holding q r) (agree : Agree touched q q')
    (apart : ∀ i ∈ r.descs, i ∉ touched) : Holding q' r where
  starts := holding.starts
  listed := agree.listed apart holding.listed
  completion := (agree.completion (apart r.head holding.head_mem)).trans holding.completion

/-- Every descriptor is in exactly one place. -/
structure Partition (n : Nat) (q : VirtioVirtqueue) (free : List Nat) (inflight : List Request)
    (lost : List Nat) : Prop where
  size : q.numEntries = n
  unused : Unused q free
  places : (free ++ (inflight.flatMap Request.descs ++ lost)).Perm (List.range n)
  holding : ∀ r ∈ inflight, Holding q r

theorem Partition.nodup (partition : Partition n q free inflight lost) :
    (free ++ (inflight.flatMap Request.descs ++ lost)).Nodup :=
  partition.places.nodup_iff.mpr List.nodup_range

theorem Partition.bound (partition : Partition n q free inflight lost)
    (member : i ∈ free ++ (inflight.flatMap Request.descs ++ lost)) : i < n :=
  List.mem_range.mp (partition.places.mem_iff.mp member)

theorem Partition.apart (partition : Partition n q free inflight lost) (member : r ∈ inflight) :
    ∀ i ∈ r.descs, i ∉ free := by
  intro i inside other
  have distinct := (List.nodup_append.mp partition.nodup).2.2 i other i
    (List.mem_append_left _ (List.mem_flatMap.mpr ⟨r,member,inside⟩))
  exact distinct rfl

theorem Partition.permute (partition : Partition n q free inflight lost)
    (perm : inflight.Perm inflight') : Partition n q free inflight' lost :=
  { partition with
    places := ((perm.flatMap_right Request.descs).symm.append_right lost |>.append_left free).trans
      partition.places
    holding := fun r member => partition.holding r (perm.mem_iff.mpr member) }

theorem sum_length_ge (inflight : List Request) (nonempty : ∀ r ∈ inflight, r.descs ≠ []) :
    inflight.length ≤ (inflight.flatMap Request.descs).length := by
  induction inflight with
  | nil => simp
  | cons r rest ih =>
    have first := List.length_pos_iff.mpr (nonempty r List.mem_cons_self)
    have later := ih fun s member => nonempty s (List.mem_cons_of_mem r member)
    simp only [List.flatMap_cons,List.length_append,List.length_cons]
    omega

theorem Partition.length_le (partition : Partition n q free inflight lost) :
    inflight.length ≤ n := by
  have total := partition.places.length_eq
  have owned := sum_length_ge inflight fun r member empty => by
    have starts := (partition.holding r member).starts
    simp [empty] at starts
  simp only [List.length_append,List.length_range] at total
  omega

/-- Steps that leave the descriptors alone keep the partition. -/
theorem Partition.congr (partition : Partition n q free inflight lost)
    (size : q'.numEntries = q.numEntries) (buffers : q'.descriptorBuffers = q.descriptorBuffers)
    (first : q'.firstUnusedDescriptorIndex = q.firstUnusedDescriptorIndex)
    (count : q'.numUnusedDescriptors = q.numUnusedDescriptors) :
    Partition n q' free inflight lost where
  size := size.trans partition.size
  unused := partition.unused.congr first count fun i _ => by
    simp [VirtioVirtqueue.nextDesc,buffers]
  places := partition.places
  holding r member := by
    have holding := partition.holding r member
    refine ⟨holding.starts,holding.listed.congr fun i _ => ?_,?_⟩
    · simp [VirtioVirtqueue.nextDesc,buffers]
    · rw [← holding.completion]
      simp [VirtioVirtqueue.completion,buffers]

/-- The chain that `next_desc` continues from `start`, for at most `fuel` descriptors. -/
def followNextDesc (next : Nat → Int) : Nat → Int → List Nat
  | 0, _ => []
  | fuel + 1, start => if start < 0 then [] else
    start.toNat :: followNextDesc next fuel (next start.toNat)

theorem followNextDesc_eq (listed : Listed next start nodes) (fuel : nodes.length ≤ steps) :
    followNextDesc next steps start = nodes := by
  induction nodes generalizing start steps with
  | nil =>
    obtain rfl : start = -1 := listed
    cases steps <;> rfl
  | cons i rest ih =>
    obtain ⟨rfl,tail⟩ := listed
    obtain ⟨steps,rfl⟩ : ∃ k, steps = k + 1 := ⟨steps - 1,by rw [List.length_cons] at fuel; omega⟩
    rw [followNextDesc,if_neg (show ¬(i : Int) < 0 by omega),Int.toNat_natCast,
      ih tail (by simpa using fuel)]

def builtRequest (q : VirtioVirtqueue) (head : Nat) (completion : VirtioCompletion) : Request :=
  ⟨head, followNextDesc q.nextDesc q.numEntries head, completion⟩

/-- A direct submission that walks into the unused list when it rolls back. -/
def Corrupting (q : VirtioVirtqueue) (call : SubmitCall) : Prop :=
  q.indirectDescriptors = false ∧ HeadUnlinked q call

/-- A submission that is turned away before it has reserved a descriptor. -/
def RefusedEarly (q : VirtioVirtqueue) (call : SubmitCall) : Prop :=
  if q.indirectDescriptors then q.firstUnusedDescriptorIndex < 0
  else call.minDescsRequired > q.numEntries ∨ call.minDescsRequired = 0 ∨
    call.minDescsRequired > q.numUnusedDescriptors

instance (q : VirtioVirtqueue) (call : SubmitCall) : Decidable (RefusedEarly q call) :=
  inferInstanceAs (Decidable (if q.indirectDescriptors then _ < _ else _ ∨ _ ∨ _))

theorem buildChain_refused (refused : RefusedEarly q call) :
    ∃ result, result ≠ .success ∧ buildChain q call = .returned result q := by
  unfold RefusedEarly at refused
  unfold buildChain
  split
  · rename_i indirect
    rw [if_pos indirect] at refused
    exact ⟨.busy,by simp,by simp [buildIndirectChain,reserveNewDescriptor,refused]⟩
  · rename_i direct
    rw [if_neg direct] at refused
    unfold buildDirectChain
    split
    · exact ⟨_,by simp,rfl⟩
    split
    · exact ⟨_,by simp,rfl⟩
    split
    · exact ⟨_,by simp,rfl⟩
    · omega

def Phase.Failed : Phase α → Prop
  | .next _ => False
  | .returned result _ => result ≠ .success
  | .stuck => True

theorem Phase.Failed.bind {phase : Phase α} (failed : phase.Failed) (rest : α → Phase β) :
    (phase.bind rest).Failed := by
  cases phase with
  | next value => exact failed.elim
  | returned result queue => exact failed
  | stuck => trivial

theorem rollback_failed (visit : Nat → VirtioVirtqueue → VirtioVirtqueue) (start : Int)
    (q : VirtioVirtqueue) (failed : result ≠ .success) :
    (rollback visit result start q : Phase α).Failed := by
  unfold rollback
  split
  · trivial
  · exact failed

theorem GenOutcome.incomplete_of_nil {outcome : GenOutcome} (empty : outcome.segments = [])
    (buf : IOMemoryDescriptor) : outcome.incomplete buf = true := by
  simp [GenOutcome.incomplete,empty]

theorem submitDeviceReadable_failed (q : VirtioVirtqueue) (buf : IOMemoryDescriptor)
    (completion : VirtioCompletion) (dma : DmaCalls) (min : Nat)
    (empty : (dma.genIOVMSegments.emit (q.numUnusedDescriptors - (min - 1))).segments = []) :
    (submitDeviceReadable q buf completion dma min).Failed := by
  simp only [submitDeviceReadable,empty,GenOutcome.incomplete_of_nil empty buf]
  split_ifs with exhausted unattached
  · trivial
  · exact unattached
  · exact rollback_failed _ _ _ (GenOutcome.failure_ne _)

theorem submitDeviceWritable_failed (chain : VringDescChain) (buf : IOMemoryDescriptor)
    (completion : VirtioCompletion) (dma : DmaCalls)
    (empty : dma.setMemoryDescriptor ≠ .success ∨
      (dma.genIOVMSegments.emit chain.queue.numUnusedDescriptors).segments = []) :
    (submitDeviceWritable first chain buf completion dma).Failed := by
  unfold submitDeviceWritable
  dsimp only
  by_cases exhausted : (reserveNewDescriptor chain.queue).1 < 0
  · rw [if_pos exhausted]
    trivial
  rw [if_neg exhausted]
  by_cases attached : dma.setMemoryDescriptor = .success
  · have empty := empty.resolve_left (not_not.mpr attached)
    rw [if_neg (not_not.mpr attached),empty]
    simp only [emitSegments,List.foldlM_nil,Option.pure_def,GenOutcome.incomplete_of_nil empty buf]
    exact rollback_failed _ _ _ (GenOutcome.failure_ne _)
  · rw [if_pos attached]
    exact rollback_failed _ _ _ attached

/-- A corrupting submission reports its failure, if it returns at all. -/
theorem buildChain_corrupting (corrupting : Corrupting q call) : (buildChain q call).Failed := by
  obtain ⟨direct,several,empty⟩ := corrupting
  simp only [buildChain,direct,Bool.false_eq_true,if_false,buildDirectChain]
  split
  · simp [Phase.Failed]
  split
  · simp [Phase.Failed]
  split
  · simp [Phase.Failed]
  cases readable : call.readableBuffer with
  | some buf =>
    simp only [readable] at empty
    have empty := empty.2
    simp only [readableSegments,readable] at empty
    exact (submitDeviceReadable_failed q buf _ _ _ empty).bind _
  | none =>
    cases writable : call.writableBuffer with
    | none => simp [readable,writable] at empty
    | some buf =>
      simp only [readable,writable] at empty
      simp only [writableSegments,writable,readableSegments,readable,List.length_nil,
        Nat.sub_zero] at empty
      exact (submitDeviceWritable_failed ⟨q,uint16Max,uint16Max,false⟩ buf _ _ empty).bind _

def Succeeds (q : VirtioVirtqueue) (call : SubmitCall) : Prop :=
  (submitBuffers q call).map SubmitReturn.result = some .success

theorem Succeeds.not_corrupting (succeeds : Succeeds q call) : ¬Corrupting q call := by
  intro corrupting
  have failed := buildChain_corrupting corrupting
  unfold Succeeds submitBuffers at succeeds
  revert succeeds failed
  cases buildChain q call with
  | next value => exact fun _ failed => failed
  | returned result queue => exact fun good failed => failed (Option.some.inj good)
  | stuck => exact fun good _ => by simp at good

/-- What the construction of a chain leaves of the unused list `free`, in either mode. -/
def ChainOutcome (q : VirtioVirtqueue) (call : SubmitCall) (free : List Nat) :
    Phase (Nat × VirtioVirtqueue) → Prop
  | .next (head, q') => ∃ descs rest, free = descs ++ rest ∧ descs.head? = some head ∧
      Unused q' rest ∧ Listed q'.nextDesc head descs ∧ q'.completion head = call.completion ∧
      Agree descs q q'
  | .returned result q' => ∃ kept lost, Unused q' kept ∧ (kept ++ lost).Perm free ∧
      Agree free q q' ∧ (result = .success → lost = [])
  | .stuck => False

theorem DirectOutcome.chain (outcome : DirectOutcome q call free phase) :
    ChainOutcome q call free phase := by
  cases phase with
  | stuck => exact outcome
  | returned result q' =>
    obtain ⟨failed,kept,lost,unused,perm,agree⟩ := outcome
    exact ⟨kept,lost,unused,perm,agree,fun good => absurd good failed⟩
  | next value =>
    obtain ⟨descs,rest,split,built⟩ := outcome
    exact ⟨descs,rest,split,built.starts,built.unused,built.listed,built.completion,built.agree⟩

theorem IndirectOutcome.chain (outcome : IndirectOutcome q i call rest phase) :
    ChainOutcome q call (i :: rest) phase := by
  cases phase with
  | stuck => exact outcome
  | next value =>
    obtain ⟨head,q'⟩ := value
    obtain ⟨rfl,unused,linked,stored,agree⟩ := outcome
    exact ⟨[head],rest,rfl,rfl,unused,⟨rfl,linked⟩,stored,agree⟩
  | returned result q' =>
    obtain ⟨agree,⟨failed,unused⟩ | ⟨unused,_⟩⟩ := outcome
    · exact ⟨rest,[i],unused,List.perm_append_singleton i rest,agree.mono (by simp),
        fun good => absurd good failed⟩
    · exact ⟨i :: rest,[],unused,by simp,agree.mono (by simp),fun _ => rfl⟩

theorem buildChain_spec (unused : Unused q free) (fits : free.length ≤ q.numEntries)
    (sound : ¬Corrupting q call) : ChainOutcome q call free (buildChain q call) := by
  unfold buildChain
  split
  · cases free with
    | nil =>
      rw [buildIndirectChain_empty unused]
      exact ⟨[],[],unused,by simp,Agree.refl [] q,fun _ => rfl⟩
    | cons i rest => exact (buildIndirectChain_spec unused call).chain
  · rename_i direct
    exact (buildDirectChain_spec unused fits fun unlinked =>
      sound ⟨by simpa using direct,unlinked⟩).chain

theorem Partition.fits (partition : Partition n q free inflight lost) : free.length ≤ n := by
  have total := partition.places.length_eq
  simp only [List.length_append,List.length_range] at total
  omega

/-- A chain that has been built belongs to a new request in flight. -/
theorem Partition.built (partition : Partition n q free inflight lost)
    (outcome : ChainOutcome q call free (.next (head, q'))) :
    ∃ rest, Partition n q' rest (builtRequest q' head call.completion :: inflight) lost ∧
      ∃ descs, Agree descs q q' := by
  obtain ⟨descs,rest,rfl,starts,unused,listed,stored,agree⟩ := outcome
  have size : q'.numEntries = n := agree.numEntries.trans partition.size
  have fits := partition.fits
  rw [List.length_append] at fits
  have request : builtRequest q' head call.completion = ⟨head,descs,call.completion⟩ := by
    rw [builtRequest,followNextDesc_eq listed (by omega)]
  rw [request]
  refine ⟨rest,⟨size,unused,?_,?_⟩,descs,agree⟩
  · refine List.Perm.trans ?_ partition.places
    rw [List.perm_iff_count]
    intro i
    simp only [List.count_append,List.flatMap_cons]
    omega
  · intro r member
    rcases List.mem_cons.mp member with rfl | member
    · exact ⟨starts,listed,stored⟩
    · exact (partition.holding r member).frame agree fun i inside other =>
        partition.apart member i inside (List.mem_append_left rest other)

/-- A failed submission can lose descriptors but leaves the requests in flight alone. -/
theorem Partition.refused (partition : Partition n q free inflight lost)
    (outcome : ChainOutcome q call free (.returned result q')) :
    ∃ kept more, Partition n q' kept inflight (more ++ lost) ∧ Agree free q q' ∧
      (result = .success → more = []) := by
  obtain ⟨kept,more,unused,perm,agree,none⟩ := outcome
  refine ⟨kept,more,⟨agree.numEntries.trans partition.size,unused,?_,?_⟩,agree,none⟩
  · refine List.Perm.trans ?_ partition.places
    rw [List.perm_iff_count] at perm ⊢
    intro i
    have counted := perm i
    simp only [List.count_append] at counted ⊢
    omega
  · exact fun r member => (partition.holding r member).frame agree (partition.apart member)

theorem Partition.disjoint (partition : Partition n q free (r :: inflight) lost)
    (member : s ∈ inflight) (there : i ∈ s.descs) : i ∉ r.descs := by
  intro here
  have places := partition.nodup
  rw [List.flatMap_cons,List.append_assoc] at places
  exact (List.nodup_append.mp (List.nodup_append.mp places).2.1).2.2 i here i
    (List.mem_append_left _ (List.mem_flatMap.mpr ⟨s,member,there⟩)) rfl

theorem Partition.chain_nodup (partition : Partition n q free (r :: inflight) lost) :
    r.descs.Nodup := by
  have places := partition.nodup
  rw [List.flatMap_cons,List.append_assoc] at places
  exact (List.nodup_append.mp (List.nodup_append.mp places).2.1).1

/-- A release loop that starts on a head in flight hands back exactly its chain. -/
theorem Partition.release (partition : Partition n q free (r :: inflight) lost)
    (neutral : Neutral visit) (small : n ≤ 32768) :
    ∃ q', releaseChain visit n r.head q = some q' ∧
      Partition n q' (r.descs.reverse ++ free) inflight lost ∧ Agree r.descs q q' := by
  have inside : ∀ i ∈ r.descs, i < n := fun i member => partition.bound
    (List.mem_append_right _ (List.mem_append_left _ (by simp [member])))
  have holding := partition.holding r List.mem_cons_self
  have distinct := partition.chain_nodup
  obtain ⟨q',released,unused,agree⟩ := releaseChain_spec neutral partition.unused holding.listed
    distinct (partition.apart List.mem_cons_self)
    (fun i member => Nat.lt_of_lt_of_le (inside i member) small)
    (length_le_of_small distinct inside)
  refine ⟨q',released,⟨agree.numEntries.trans partition.size,unused,?_,?_⟩,agree⟩
  · refine List.Perm.trans ?_ partition.places
    rw [List.perm_iff_count]
    intro i
    simp only [List.count_append,List.flatMap_cons,List.count_reverse]
    omega
  · intro s member
    exact (partition.holding s (List.mem_cons_of_mem r member)).frame agree
      fun i there => partition.disjoint member there

theorem listed_initial {k m n : Nat} (small : n ≤ 32768) (calls : SetupCalls) (positive : 0 < m)
    (ends : k + m = n) :
    Listed (fun i => (initialBuffer n calls i).nextDesc) k (List.range' k m) := by
  induction m generalizing k with
  | zero => omega
  | succ m ih =>
    refine ⟨rfl,?_⟩
    cases m with
    | zero =>
      have last : k = n - 1 := by omega
      simp [initialBuffer,last]
    | succ m =>
      have next : (initialBuffer n calls k).nextDesc = ((k + 1 : Nat) : Int) := by
        rw [initialBuffer,if_neg (by omega),int16_cast _ (by omega)]
      simp only [next]
      exact ih (by omega) (by omega)

/-- The queue that `setupVirtqueue` hands over has all its descriptors unused. -/
theorem partition_initial (accepted : AcceptedSize n) (interrupts indirect : Bool)
    (calls : SetupCalls) :
    Partition n (initialQueue n interrupts indirect calls) (List.range n) [] [] where
  size := rfl
  unused := by
    refine ⟨?_,by simp [initialQueue],List.nodup_range,fun i member => ?_⟩
    · rw [List.range_eq_range']
      exact listed_initial accepted.le calls accepted.pos (Nat.zero_add n)
    · have := accepted.le
      have := List.mem_range.mp member
      omega
  places := by simp
  holding := by simp

end VirtioOsx
