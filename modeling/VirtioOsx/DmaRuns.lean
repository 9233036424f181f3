import Mathlib.Data.List.Find
import VirtioOsx.CompletionRuns
import VirtioOsx.DmaCommands

/-! Runs of a queue with direct descriptors, followed through its DMA commands: which of
them have a buffer attached, and in which step each buffer is attached and detached. -/
namespace VirtioOsx

open Runs

/-- A descriptor whose command is the one for the readable or the writable buffer of a
request. -/
def CarriesBuffer (q : VirtioVirtqueue) (r : Request) (i : Nat) : Prop :=
  firstReadable q.descriptorTable r.descs = some i ∨ firstWritable q.descriptorTable r.descs = some i

theorem CarriesBuffer.mem (carries : CarriesBuffer q r i) : i ∈ r.descs := by
  rcases carries with readable | writable
  · exact List.mem_of_find?_eq_some readable
  · exact List.mem_of_find?_eq_some writable

theorem CarriesBuffer.congr {q q' : VirtioVirtqueue}
    (same : ∀ i ∈ r.descs, q'.descriptorTable i = q.descriptorTable i) :
    CarriesBuffer q' r i ↔ CarriesBuffer q r i := by
  have direction : ∀ k ∈ r.descs, describesWritable q'.descriptorTable k =
      describesWritable q.descriptorTable k := by
    intro k member
    simp only [describesWritable,same k member]
  have readable : firstReadable q'.descriptorTable r.descs = firstReadable q.descriptorTable r.descs :=
    List.find?_congr fun k member => by rw [direction k member]
  have writable : firstWritable q'.descriptorTable r.descs = firstWritable q.descriptorTable r.descs :=
    List.find?_congr fun k member => by rw [direction k member]
  simp only [CarriesBuffer,readable,writable]

/-- The flags tell which commands have a buffer attached, and those are the ones that
carry the buffers of the requests in flight. -/
structure Attachments (q : VirtioVirtqueue) (inflight : List Request) : Prop where
  flagged : ∀ i, (q.dma i).1 = true ↔ (q.dma i).2 ≠ none
  carried : ∀ i, (q.dma i).2 ≠ none ↔ ∃ r ∈ inflight, CarriesBuffer q r i

theorem Attachments.idle_of_none (attachments : Attachments q inflight)
    (none : (q.dma i).2 = none) : q.dma i = (false,Option.none) := by
  have unused : (q.dma i).1 = false := by
    by_contra used
    exact (attachments.flagged i).mp (by simpa using used) none
  exact Prod.ext unused none

theorem Attachments.idle (attachments : Attachments q inflight)
    (partition : Partition n q free inflight lost) :
    ∀ i ∈ free, q.dma i = (false,none) := by
  intro i unused
  apply attachments.idle_of_none
  by_contra attached
  obtain ⟨r,member,carries⟩ := (attachments.carried i).mp attached
  exact partition.apart member i carries.mem unused

theorem Attachments.congr (attachments : Attachments q inflight) (same : q'.dma = q.dma)
    (table : ∀ r ∈ inflight, ∀ i ∈ r.descs, q'.descriptorTable i = q.descriptorTable i)
    (perm : inflight.Perm inflight') : Attachments q' inflight' := by
  refine ⟨fun i => by rw [same]; exact attachments.flagged i,fun i => ?_⟩
  rw [same,attachments.carried i]
  constructor
  · rintro ⟨r,member,carries⟩
    exact ⟨r,perm.mem_iff.mp member,(CarriesBuffer.congr (table r member)).mpr carries⟩
  · rintro ⟨r,member,carries⟩
    have member := perm.mem_iff.mpr member
    exact ⟨r,member,(CarriesBuffer.congr (table r member)).mp carries⟩

/-- A released chain takes its attachments with it and leaves the others. -/
theorem Attachments.released (attachments : Attachments q (r :: inflight))
    (partition : Partition n q free (r :: inflight) lost) (agree : Agree r.descs q q')
    (cleared : q'.dma = clearedDma r.descs q.dma) : Attachments q' inflight := by
  have inside (i : Nat) (member : i ∈ r.descs) : q'.dma i = (false,none) := by
    rw [cleared,clearedDma]
    by_cases used : (q.dma i).1 = true
    · rw [if_pos ⟨member,used⟩]
    · rw [if_neg (fun both => used both.2)]
      apply attachments.idle_of_none
      by_contra attached
      exact used ((attachments.flagged i).mpr attached)
  have table : ∀ s ∈ inflight, ∀ i ∈ s.descs, q'.descriptorTable i = q.descriptorTable i :=
    fun s member i there => agree.table i (partition.disjoint member there)
  constructor
  · intro i
    by_cases member : i ∈ r.descs
    · simp [inside i member]
    · rw [agree.dma member]
      exact attachments.flagged i
  · intro i
    by_cases member : i ∈ r.descs
    · simp only [inside i member,ne_eq,not_true_eq_false,false_iff,not_exists,not_and]
      intro s other carries
      exact partition.disjoint other carries.mem member
    · rw [agree.dma member,attachments.carried i]
      constructor
      · rintro ⟨s,held,carries⟩
        rcases List.mem_cons.mp held with rfl | held
        · exact absurd carries.mem member
        · exact ⟨s,held,(CarriesBuffer.congr (table s held)).mpr carries⟩
      · rintro ⟨s,held,carries⟩
        exact ⟨s,List.mem_cons_of_mem r held,(CarriesBuffer.congr (table s held)).mp carries⟩

theorem Attachments.built (attachments : Attachments q inflight)
    (apart : ∀ r ∈ inflight, ∀ i ∈ r.descs, i ∉ descs) (agree : Agree descs q q')
    (attached : q'.dma = attachedDma q.dma call (firstReadable q'.descriptorTable descs)
      (firstWritable q'.descriptorTable descs))
    (readable : (firstReadable q'.descriptorTable descs).isSome = true →
      call.readableBuffer.isSome = true)
    (writable : (firstWritable q'.descriptorTable descs).isSome = true →
      call.writableBuffer.isSome = true) :
    Attachments q' (⟨head,descs,completion⟩ :: inflight) := by
  have table : ∀ r ∈ inflight, ∀ i ∈ r.descs, q'.descriptorTable i = q.descriptorTable i :=
    fun r member i inside => agree.table i (apart r member i inside)
  have own (i : Nat) : CarriesBuffer q' ⟨head,descs,completion⟩ i →
      (q'.dma i).1 = true ∧ (q'.dma i).2 ≠ none := by
    intro carries
    rw [attached,attachedDma]
    by_cases first : firstReadable q'.descriptorTable descs = some i
    · simpa [first,Option.isSome_iff_ne_none] using readable (by simp [first])
    · have second : firstWritable q'.descriptorTable descs = some i := carries.resolve_left first
      simpa [first,second,Option.isSome_iff_ne_none] using writable (by simp [second])
  have other (i : Nat) (none : ¬CarriesBuffer q' ⟨head,descs,completion⟩ i) :
      q'.dma i = q.dma i := by
    obtain ⟨first,second⟩ := not_or.mp none
    rw [attached,attachedDma,if_neg first,if_neg second]
  constructor
  · intro i
    by_cases carries : CarriesBuffer q' ⟨head,descs,completion⟩ i
    · simp [own i carries]
    · rw [other i carries]
      exact attachments.flagged i
  · intro i
    by_cases carries : CarriesBuffer q' ⟨head,descs,completion⟩ i
    · exact ⟨fun _ => ⟨_,List.mem_cons_self,carries⟩,fun _ => (own i carries).2⟩
    · rw [other i carries,attachments.carried i]
      constructor
      · rintro ⟨r,member,there⟩
        exact ⟨r,List.mem_cons_of_mem _ member,(CarriesBuffer.congr (table r member)).mpr there⟩
      · rintro ⟨r,member,there⟩
        rcases List.mem_cons.mp member with rfl | member
        · exact absurd there carries
        · exact ⟨r,member,(CarriesBuffer.congr (table r member)).mp there⟩

/-- Submissions of a queue with direct descriptors that neither strand a flag nor corrupt
the unused list. -/
def Attaching (m : Machine) (a : Action) : Prop :=
  ∀ call, a = .submit call → RefusedEarly m.queue call ∨
    ¬HeadUnlinked m.queue call ∧ ¬Stranding m.queue call

inductive DmaStep (m : Machine) (a : Action) (m' : Machine) : Prop where
  | unchanged : m'.queue.dma = m.queue.dma → m'.log = m.log →
      (∀ call, a = .submit call → m'.submitting = none) → DmaStep m a m'
  | attached (call : SubmitCall) (r : Request) : a = .submit call →
      m'.submitting = some (.slot r) →
      m'.queue.dma = attachedDma m.queue.dma call (firstReadable m'.queue.descriptorTable r.descs)
        (firstWritable m'.queue.descriptorTable r.descs) →
      (∀ i ∈ r.descs, m.queue.dma i = (false, none)) → m'.log = m.log → DmaStep m a m'
  | detached (e : Returned) : a = .advance → m.submitting = none →
      m.returned[m.log.length]? = some e → m'.log = m.log ++ [e.invocation] →
      m'.queue.dma = clearedDma e.fetched.request.descs m.queue.dma → DmaStep m a m'

structure Untouched (m m' : Machine) : Prop where
  buffers : m'.queue.descriptorBuffers = m.queue.descriptorBuffers
  table : m'.queue.descriptorTable = m.queue.descriptorTable
  indirect : m'.queue.indirectDescriptors = m.queue.indirectDescriptors
  inflight : m.inflight.Perm m'.inflight
  log : m'.log = m.log

theorem Untouched.dma (untouched : Untouched m m') : m'.queue.dma = m.queue.dma := by
  funext i
  simp only [VirtioVirtqueue.dma,untouched.buffers]

theorem Untouched.attachments (untouched : Untouched m m')
    (attachments : Attachments m.queue m.inflight) : Attachments m'.queue m'.inflight :=
  attachments.congr untouched.dma (fun _ _ i _ => congrFun untouched.table i) untouched.inflight

structure DmaInv (n : Nat) (m : Machine) : Prop where
  machine : ∃ lost, MachineInv n lost m
  direct : m.queue.indirectDescriptors = false
  attachments : Attachments m.queue m.inflight

def Carried (m : Machine) (a : Action) (m' : Machine) : Prop :=
  m'.queue.indirectDescriptors = m.queue.indirectDescriptors ∧ DmaStep m a m' ∧
    Attachments m'.queue m'.inflight

theorem DmaInv.untouched (inv : DmaInv n m) (untouched : Untouched m m')
    (other : ∀ call, a ≠ .submit call) : Carried m a m' :=
  ⟨untouched.indirect,.unchanged untouched.dma untouched.log
    (fun call same => absurd same (other call)),untouched.attachments inv.attachments⟩

theorem DmaInv.submit (inv : DmaInv n m) (attaching : Attaching m (.submit call))
    (taken : m.submit call = some m') : Carried m (.submit call) m' := by
  obtain ⟨lost,machine⟩ := inv.machine
  obtain ⟨free,partition⟩ := machine.partition
  have idle := inv.attachments.idle partition
  have fits : free.length ≤ m.queue.numEntries := partition.size.symm ▸ partition.fits
  by_cases refused : RefusedEarly m.queue call
  · have quiet := (Machine.submit_cases taken).1
    rw [Machine.submit_refused refused taken]
    exact ⟨rfl,.unchanged rfl rfl fun _ _ => quiet,inv.attachments⟩
  obtain ⟨linked,sound⟩ := (attaching call rfl).resolve_left refused
  have direct : buildChain m.queue call = buildDirectChain m.queue call := by
    simp [buildChain,inv.direct]
  obtain ⟨quiet,⟨head,queue,built,rfl⟩ | ⟨result,queue,left,rfl⟩⟩ := Machine.submit_cases taken
  · rw [direct] at built
    obtain ⟨descs,rest,rfl,chain,attached,readable,writable⟩ :=
      buildDirectChain_attached inv.direct partition.unused fits idle linked built
    have request : builtRequest queue head call.completion = ⟨head,descs,call.completion⟩ := by
      have size : queue.numEntries = m.queue.numEntries := chain.agree.numEntries
      rw [List.length_append] at fits
      rw [builtRequest,followNextDesc_eq chain.listed (by omega)]
    have apart : ∀ r ∈ m.inflight, ∀ i ∈ r.descs, i ∉ descs := fun r member i inside other =>
      partition.apart member i inside (List.mem_append_left rest other)
    rw [request]
    refine ⟨chain.agree.indirectDescriptors,.attached call _ rfl rfl attached
      (fun i member => idle i (List.mem_append_left rest member)) rfl,?_⟩
    have grown : Attachments queue (⟨head,descs,call.completion⟩ :: m.inflight) :=
      inv.attachments.built apart chain.agree attached readable writable
    simpa [Machine.inflight,Machine.unconsumed,Machine.unprocessed,unpublished,quiet] using grown
  · rw [direct] at left
    obtain ⟨restored,agree⟩ := buildDirectChain_restored inv.direct partition.unused fits idle
      linked sound left
    refine ⟨agree.indirectDescriptors,.unchanged restored rfl fun _ _ => quiet,?_⟩
    exact inv.attachments.congr restored
      (fun r member i inside => agree.table i (partition.apart member i inside)) (.refl _)

theorem processCompletedRequests_cases
    (moved : processCompletedRequestsInVirtqueue q call = some result) :
    (result.invoked = none ∧ result.queue.descriptorBuffers = q.descriptorBuffers ∧
      result.queue.descriptorTable = q.descriptorTable ∧
      result.queue.indirectDescriptors = q.indirectDescriptors) ∨
    ∃ current next q', call.position = .batch current next ∧ next ≠ current ∧
      releaseChain clearCompleted q.numEntries
        (int16 (q.usedRing.ring (next % q.numEntries)).descriptorId) q = some q' ∧
      result = ⟨q', some (.action current next),
        some ⟨q.completion (q.usedRing.ring (next % q.numEntries)).descriptorId, false,
          (q.usedRing.ring (next % q.numEntries)).writtenBytes⟩⟩ := by
  obtain ⟨limit,total,place⟩ := call
  cases place with
  | poll =>
    simp only [processCompletedRequestsInVirtqueue] at moved
    split at moved
    all_goals
      obtain rfl := Option.some.inj moved
      exact .inl ⟨rfl,rfl,rfl,rfl⟩
  | unmask next =>
    obtain rfl := Option.some.inj moved
    left
    dsimp only
    split
    · exact ⟨rfl,rfl,rfl,rfl⟩
    · exact ⟨rfl,rfl,rfl,rfl⟩
  | recheck next =>
    simp only [processCompletedRequestsInVirtqueue] at moved
    split at moved
    all_goals
      obtain rfl := Option.some.inj moved
      exact .inl ⟨rfl,rfl,rfl,rfl⟩
  | batch current next =>
    simp only [processCompletedRequestsInVirtqueue] at moved
    split at moved
    · rename_i more
      obtain ⟨q',released,same⟩ := Option.map_eq_some_iff.mp moved
      exact .inr ⟨current,next,q',rfl,more.1,released,same.symm⟩
    · obtain rfl := Option.some.inj moved
      exact .inl ⟨rfl,rfl,rfl,rfl⟩
  | action current next =>
    obtain rfl := Option.some.inj moved
    exact .inl ⟨rfl,rfl,rfl,rfl⟩

theorem DmaInv.advance (inv : DmaInv n m) (taken : m.advance = some m') :
    Carried m .advance m' := by
  obtain ⟨quiet,call,result,busy,moved,rfl⟩ := Machine.advance_cases taken
  rcases processCompletedRequests_cases moved with ⟨silent,buffers,table,indirect⟩ |
    ⟨current,next,q',place,more,released,rfl⟩
  · apply inv.untouched _ (by simp)
    refine ⟨buffers,table,indirect,?_,by simp [Machine.processed,silent]⟩
    simp [Machine.inflight,Machine.processed,Machine.unconsumed,Machine.unprocessed,silent]
  · obtain ⟨lost,machine⟩ := inv.machine
    obtain ⟨free,partition⟩ := machine.partition
    have position := machine.position
    rw [busy] at position
    obtain ⟨limit,total,_⟩ := call
    obtain rfl := place
    obtain ⟨rfl,index,seen,value,least,most⟩ := position
    obtain ⟨_,entry,oldest⟩ := Machine.oldest index value least most more
    obtain ⟨element,head⟩ := machine.element quiet oldest index
    have front := partition.permute (Machine.inflight_oldest quiet oldest)
    have holding := front.holding _ List.mem_cons_self
    rw [element] at released ⊢
    simp only [head,machine.size] at released
    obtain ⟨q'',again,_,agree⟩ := front.release neutral_clearCompleted machine.accepted.le
    obtain rfl : q' = q'' := Option.some.inj (released.symm.trans again)
    have cleared := releaseChain_dma neutral_clearCompleted dma_clearCompleted holding.listed
      front.chain_nodup released
    refine ⟨agree.indirectDescriptors,.detached entry rfl quiet oldest ?_ cleared,?_⟩
    · simp [Machine.processed,Returned.invocation,holding.completion]
    · have left := (inv.attachments.congr rfl (fun _ _ _ _ => rfl)
        (Machine.inflight_oldest quiet oldest)).released front agree cleared
      rw [inflight_invoked quiet]
      exact left

theorem MachineInv.untouched (inv : MachineInv n lost m) (taken : step a m = some m')
    (noSubmit : ∀ call, a ≠ .submit call) (noAdvance : a ≠ .advance) : Untouched m m' := by
  cases a with
  | submit call => exact absurd rfl (noSubmit call)
  | advance => exact absurd rfl noAdvance
  | publish =>
    have perm := Machine.publish_inflight inv.available.behind taken
    rcases Machine.publish_cases taken with ⟨r,_,rfl⟩ | ⟨r,_,rfl⟩ | ⟨_,rfl⟩
    · exact ⟨rfl,rfl,rfl,perm,rfl⟩
    · exact ⟨rfl,rfl,rfl,perm,rfl⟩
    · exact ⟨rfl,rfl,rfl,perm,rfl⟩
  | fetch =>
    have perm := Machine.fetch_inflight taken
    obtain ⟨_,r,_,rfl⟩ := Machine.fetch_cases taken
    exact ⟨rfl,rfl,rfl,perm,rfl⟩
  | complete position writtenBytes =>
    have perm := Machine.complete_inflight inv.used.processed taken
    obtain ⟨f,_,rfl⟩ := Option.map_eq_some_iff.mp taken
    exact ⟨rfl,rfl,rfl,perm,rfl⟩
  | process | suppress | enable | recheck | kick =>
    simp only [step,Machine.process,Machine.suppress,Machine.enable,Machine.recheck,
      Machine.kick] at taken
    split at taken
    · obtain rfl := Option.some.inj taken
      exact ⟨rfl,rfl,rfl,.refl _,rfl⟩
    · cases taken

theorem DmaInv.carried (inv : DmaInv n m) (attaching : Attaching m a)
    (taken : step a m = some m') : Carried m a m' := by
  obtain ⟨lost,machine⟩ := inv.machine
  by_cases submitting : ∃ call, a = .submit call
  · obtain ⟨call,rfl⟩ := submitting
    exact inv.submit attaching taken
  by_cases advancing : a = .advance
  · subst a
    exact inv.advance taken
  have noSubmit := not_exists.mp submitting
  exact inv.untouched (machine.untouched taken noSubmit advancing) noSubmit

theorem DmaInv.keeps (inv : DmaInv n m) (attaching : Attaching m a)
    (taken : step a m = some m') : DmaInv n m' := by
  obtain ⟨lost,machine⟩ := inv.machine
  obtain ⟨indirect,_,attachments⟩ := inv.carried attaching taken
  refine ⟨?_,indirect.trans inv.direct,attachments⟩
  by_cases submitting : ∃ call, a = .submit call
  · obtain ⟨call,rfl⟩ := submitting
    have sound : RefusedEarly m.queue call ∨ ¬Corrupting m.queue call :=
      (attaching call rfl).imp_right fun good corrupting => good.1 corrupting.2
    obtain ⟨more,kept,_⟩ := machine.submit sound taken
    exact ⟨_,kept⟩
  · obtain ⟨more,kept,_⟩ := machine.keeps taken
      (.inl fun call same => absurd ⟨call,same⟩ submitting)
    exact ⟨_,kept⟩

theorem dmaInv_setup (size : n < 65536)
    (built : setupVirtqueue n activeFeatures interruptsEnabled indirectDescPerRequest calls =
      .ok queue) (direct : queue.indirectDescriptors = false) : DmaInv n (Machine.start queue) := by
  refine ⟨⟨[],machineInv_setup size built⟩,direct,?_⟩
  obtain ⟨_,indirect,rfl⟩ := setupVirtqueue_ok size built
  constructor
  · intro i
    simp [Machine.start,VirtioVirtqueue.dma,initialQueue,initialBuffer]
  · intro i
    simp [Machine.start,VirtioVirtqueue.dma,initialQueue,initialBuffer,Machine.inflight,
      Machine.unconsumed,Machine.unprocessed,unpublished]

/-- What the flags and the commands show between any two steps. -/
structure Tracked (m : Machine) : Prop where
  /-- A flag is set exactly if something is attached. -/
  flagged : ∀ i, (m.queue.descriptorBuffers i).dmaCmdUsed = true ↔
    (m.queue.descriptorBuffers i).dmaCmd ≠ none
  /-- Something is attached exactly to the first readable and the first writable
  descriptor of each request in flight. -/
  attached : ∀ i, (m.queue.descriptorBuffers i).dmaCmd ≠ none ↔
    ∃ r ∈ m.inflight, CarriesBuffer m.queue r i

def Machine.deviceOwned (m : Machine) : List Request :=
  m.unconsumed ++ m.owned.map Fetched.request

structure Accounted (m : Machine) (a : Action) (m' : Machine) : Prop where
  /-- A command gets a buffer only while it has none, and only from the submission whose
  request it then belongs to. -/
  attaches : ∀ i buf, (m'.queue.descriptorBuffers i).dmaCmd = some buf →
    (m.queue.descriptorBuffers i).dmaCmd = some buf ∨
    (m.queue.descriptorBuffers i).dmaCmd = none ∧ ∃ call r, a = .submit call ∧
      m'.submitting = some (.slot r) ∧
      (firstReadable m'.queue.descriptorTable r.descs = some i ∧ call.readableBuffer = some buf ∨
        firstWritable m'.queue.descriptorTable r.descs = some i ∧ call.writableBuffer = some buf)
  /-- It keeps the buffer until its request is completed. -/
  detaches : ∀ i buf, (m.queue.descriptorBuffers i).dmaCmd = some buf →
    (m'.queue.descriptorBuffers i).dmaCmd = some buf ∨
    (m'.queue.descriptorBuffers i).dmaCmd = none ∧ ∃ e, a = .advance ∧
      m.returned[m.log.length]? = some e ∧ m'.log = m.log ++ [e.invocation] ∧
      CarriesBuffer m.queue e.fetched.request i
  /-- A completion detaches every buffer of its request. -/
  completes : ∀ e, m.returned[m.log.length]? = some e → m'.log = m.log ++ [e.invocation] →
    ∀ i, CarriesBuffer m.queue e.fetched.request i →
      (m.queue.descriptorBuffers i).dmaCmd ≠ none ∧ (m'.queue.descriptorBuffers i).dmaCmd = none
  /-- A submission that fails leaves every command as it found it. -/
  rollsBack : ∀ call, a = .submit call → m'.submitting = none → ∀ i,
    (m'.queue.descriptorBuffers i).dmaCmd = (m.queue.descriptorBuffers i).dmaCmd ∧
    (m'.queue.descriptorBuffers i).dmaCmdUsed = (m.queue.descriptorBuffers i).dmaCmdUsed
  /-- Nothing is detached while the device may work on it. -/
  deviceOwned : ∀ r ∈ m.deviceOwned, ∀ i, CarriesBuffer m.queue r i →
    (m.queue.descriptorBuffers i).dmaCmd ≠ none ∧
    (m'.queue.descriptorBuffers i).dmaCmd = (m.queue.descriptorBuffers i).dmaCmd

theorem DmaStep.attaches (moved : DmaStep m a m') (after : (m'.queue.dma i).2 = some buf) :
    (m.queue.dma i).2 = some buf ∨
    (m.queue.dma i).2 = none ∧ ∃ call r, a = .submit call ∧ m'.submitting = some (.slot r) ∧
      (firstReadable m'.queue.descriptorTable r.descs = some i ∧ call.readableBuffer = some buf ∨
        firstWritable m'.queue.descriptorTable r.descs = some i ∧
          call.writableBuffer = some buf) := by
  cases moved with
  | unchanged same =>
    rw [same] at after
    exact .inl after
  | attached call r submit slot same idle =>
    rw [same,attachedDma] at after
    split at after
    · rename_i first
      exact .inr ⟨by rw [idle i (List.mem_of_find?_eq_some first)],call,r,submit,slot,
        .inl ⟨first,after⟩⟩
    split at after
    · rename_i first
      exact .inr ⟨by rw [idle i (List.mem_of_find?_eq_some first)],call,r,submit,slot,
        .inr ⟨first,after⟩⟩
    · exact .inl after
  | detached e _ _ _ _ same =>
    rw [same,clearedDma] at after
    split at after
    · cases after
    · exact .inl after

/-- The invariant with the request that is completed next put first. -/
theorem DmaInv.front (inv : DmaInv n m) (quiet : m.submitting = none)
    (oldest : m.returned[m.log.length]? = some e) :
    Attachments m.queue (e.fetched.request :: m.later) ∧
      ∃ free lost, Partition n m.queue free (e.fetched.request :: m.later) lost := by
  obtain ⟨lost,machine⟩ := inv.machine
  obtain ⟨free,partition⟩ := machine.partition
  have perm := Machine.inflight_oldest quiet oldest
  exact ⟨inv.attachments.congr rfl (fun _ _ _ _ => rfl) perm,free,lost,partition.permute perm⟩

theorem DmaInv.detaches (inv : DmaInv n m) (moved : DmaStep m a m')
    (before : (m.queue.dma i).2 = some buf) :
    (m'.queue.dma i).2 = some buf ∨
    (m'.queue.dma i).2 = none ∧ ∃ e, a = .advance ∧ m.submitting = none ∧
      m.returned[m.log.length]? = some e ∧ m'.log = m.log ++ [e.invocation] ∧
      CarriesBuffer m.queue e.fetched.request i := by
  cases moved with
  | unchanged same => exact .inl (by rw [same]; exact before)
  | attached call r submit slot same idle =>
    have outside : i ∉ r.descs := by
      intro inside
      simp [idle i inside] at before
    have notReadable : firstReadable m'.queue.descriptorTable r.descs ≠ some i := fun here =>
      outside (List.mem_of_find?_eq_some here)
    have notWritable : firstWritable m'.queue.descriptorTable r.descs ≠ some i := fun here =>
      outside (List.mem_of_find?_eq_some here)
    left
    rw [same,attachedDma,if_neg notReadable,if_neg notWritable]
    exact before
  | detached e advancing quiet oldest log same =>
    obtain ⟨attachments,free,lost,partition⟩ := inv.front quiet oldest
    have attached : (m.queue.dma i).2 ≠ none := by simp [before]
    obtain ⟨r,member,carries⟩ := (attachments.carried i).mp attached
    by_cases inside : i ∈ e.fetched.request.descs
    · right
      have used := (attachments.flagged i).mpr attached
      refine ⟨by rw [same,clearedDma,if_pos ⟨inside,used⟩],e,advancing,quiet,oldest,log,?_⟩
      rcases List.mem_cons.mp member with rfl | other
      · exact carries
      · exact absurd inside (partition.disjoint other carries.mem)
    · left
      rw [same,clearedDma,if_neg (fun both => inside both.1)]
      exact before

theorem DmaInv.accounted (inv : DmaInv n m) (attaching : Attaching m a)
    (taken : step a m = some m') : Accounted m a m' := by
  obtain ⟨_,moved,_⟩ := inv.carried attaching taken
  refine ⟨fun i buf => moved.attaches,fun i buf before => ?_,?_,?_,?_⟩
  · rcases inv.detaches moved before with kept | ⟨gone,e,advancing,_,oldest,log,carries⟩
    · exact .inl kept
    · exact .inr ⟨gone,e,advancing,oldest,log,carries⟩
  · intro e oldest log i carries
    cases moved with
    | unchanged _ same => simp [same] at log
    | attached _ _ _ _ _ _ same => simp [same] at log
    | detached other _ quiet found _ same =>
      obtain rfl : e = other := Option.some.inj (oldest.symm.trans found)
      obtain ⟨attachments,_⟩ := inv.front quiet oldest
      have attached := (attachments.carried i).mpr ⟨_,List.mem_cons_self,carries⟩
      have used := (attachments.flagged i).mpr attached
      have gone : (m'.queue.dma i).2 = none := by
        rw [same,clearedDma,if_pos ⟨carries.mem,used⟩]
      exact ⟨attached,gone⟩
  · intro call submit failed i
    cases moved with
    | unchanged same => exact ⟨congrArg Prod.snd (congrFun same i),congrArg Prod.fst (congrFun same i)⟩
    | attached _ _ _ slot => simp [failed] at slot
    | detached _ advancing => simp [submit] at advancing
  · intro r owned i carries
    have member : r ∈ m.inflight := by
      simp only [Machine.deviceOwned,List.mem_append] at owned
      simp only [Machine.inflight,List.mem_append]
      tauto
    have attached := (inv.attachments.carried i).mpr ⟨r,member,carries⟩
    obtain ⟨buf,before⟩ := Option.ne_none_iff_exists'.mp attached
    refine ⟨attached,?_⟩
    rcases inv.detaches moved before with kept | ⟨_,e,_,quiet,oldest,_,here⟩
    · exact kept.trans before.symm
    · obtain ⟨_,free,lost,partition⟩ := inv.front quiet oldest
      have later : r ∈ m.later := by
        simp only [Machine.deviceOwned,List.mem_append] at owned
        simp only [Machine.later,List.mem_append]
        tauto
      exact absurd here.mem (partition.disjoint later carries.mem)

theorem DmaInv.tracked (inv : DmaInv n m) : Tracked m :=
  ⟨inv.attachments.flagged,inv.attachments.carried⟩

/-- A stranding submission is noticed at once. -/
theorem DmaInv.stranded (inv : DmaInv n m) (stranding : Stranding m.queue call)
    (accepted : ¬RefusedEarly m.queue call) (taken : m.submit call = some m') : ¬Tracked m' := by
  obtain ⟨lost,machine⟩ := inv.machine
  obtain ⟨free,partition⟩ := machine.partition
  have fits : free.length ≤ m.queue.numEntries := partition.size.symm ▸ partition.fits
  obtain ⟨code,queue,i,returned,flagged⟩ := buildDirectChain_stranded inv.direct partition.unused
    fits (inv.attachments.idle partition) stranding.linked stranding accepted
  have direct : buildChain m.queue call = .returned code queue := by
    simpa [buildChain,inv.direct] using returned
  obtain ⟨_,⟨head,queue',built,rfl⟩ | ⟨result,queue',left,rfl⟩⟩ := Machine.submit_cases taken
  · rw [direct] at built
    cases built
  · rw [direct] at left
    injection left with _ same
    subst same
    intro tracked
    have set : (queue.dma i).1 = true := by rw [flagged]
    have none : (queue.dma i).2 = none := by rw [flagged]
    exact (tracked.flagged i).mp set none

/-- In every run of a queue with direct descriptors whose submissions neither strand a
flag nor corrupt the unused list, the flags and the attachments belong to the requests in
flight, and every further step accounts for what it attaches and detaches. A further
submission that strands a flag, and only such a one, ends this. -/
theorem dma_commands_tracked (n activeFeatures : Nat) (interruptsEnabled : Bool)
    (indirectDescPerRequest : Nat) (calls : SetupCalls) (queue : VirtioVirtqueue)
    (size : n < 65536)
    (built : setupVirtqueue n activeFeatures interruptsEnabled indirectDescPerRequest calls =
      .ok queue) (direct : queue.indirectDescriptors = false)
    (actions : List Action) (m : Machine)
    (run : Run step Attaching (Machine.start queue) actions m) :
    Tracked m ∧ (∀ a m', Attaching m a → step a m = some m' → Accounted m a m') ∧
      ∀ call m', step (.submit call) m = some m' → ¬HeadUnlinked m.queue call →
        (Tracked m' ↔ RefusedEarly m.queue call ∨ ¬Stranding m.queue call) := by
  have inv : DmaInv n m := Run.keeps (DmaInv n)
    (fun attaching taken inv => inv.keeps attaching taken) run (dmaInv_setup size built direct)
  refine ⟨inv.tracked,fun a m' attaching taken => inv.accounted attaching taken,?_⟩
  intro call m' taken linked
  constructor
  · intro tracked
    by_contra bad
    obtain ⟨accepted,stranding⟩ := not_or.mp bad
    exact inv.stranded (not_not.mp stranding) accepted taken tracked
  · intro good
    have attaching : Attaching m (.submit call) := by
      rintro other same
      obtain rfl := Action.submit.inj same
      exact good.imp_right fun sound => ⟨linked,sound⟩
    exact (inv.keeps attaching taken).tracked

/-- A request with a buffer of one segment for each direction. The writable one is walked
to its end only if it has 512 bytes. -/
def transfer (ref writableLength : Nat) : SubmitCall :=
  ⟨some ⟨ref, 512⟩, some ⟨ref + 1, writableLength⟩, ⟨1, 2, ref⟩, sector.dma, sector.dma, sector.dma⟩

def transfers : List Action :=
  [.submit (transfer 3 1024), .submit (transfer 5 512), .publish, .publish, .publish, .kick, .fetch]

def checkAttaching (m : Machine) : Action → Bool
  | .submit call => call.readableBuffer.isSome &&
      call.readable.setMemoryDescriptor == .success &&
      call.writable.setMemoryDescriptor == .success && !(readableSegments m.queue call).isEmpty
  | _ => true

theorem attaching_of_check (m : Machine) (a : Action) (checked : checkAttaching m a = true) :
    Attaching m a := by
  rintro call rfl
  simp only [checkAttaching,Bool.and_eq_true,beq_iff_eq,Bool.not_eq_true',List.isEmpty_eq_false_iff]
    at checked
  obtain ⟨⟨⟨present,readable⟩,writable⟩,emitted⟩ := checked
  obtain ⟨buf,some⟩ := Option.isSome_iff_exists.mp present
  right
  constructor
  · rintro ⟨_,unlinked⟩
    simp only [some] at unlinked
    exact emitted unlinked.2
  · simp [Stranding,some,readable,writable]

theorem dma_commands_tracked_transfers :
    ∃ m, Run step Attaching (Machine.start (initialQueue 4 true false (readyCalls 4 64))) transfers m ∧
      m.deviceOwned.map Request.descs = [[1,0]] ∧
      (List.range 4).map (fun i => (m.queue.descriptorBuffers i).dmaCmd) =
        [some ⟨6,512⟩,some ⟨5,512⟩,none,none] ∧ Tracked m := by
  have played : (play step checkAttaching transfers
      (Machine.start (initialQueue 4 true false (readyCalls 4 64)))).map
        (fun m => (m.deviceOwned.map Request.descs,
          (List.range 4).map (fun i => (m.queue.descriptorBuffers i).dmaCmd))) =
      some ([[1,0]],[some ⟨6,512⟩,some ⟨5,512⟩,none,none]) := by decide +kernel
  obtain ⟨m,played,observed⟩ := Option.map_eq_some_iff.mp played
  have run := run_of_play attaching_of_check played
  obtain ⟨owned,attached⟩ := Prod.mk.inj observed
  exact ⟨m,run,owned,attached,(dma_commands_tracked 4 0 true 0 (readyCalls 4 64) _ (by decide) rfl
    rfl transfers m run).1⟩

def unprepared (ref : Nat) : SubmitCall :=
  { writeSector ref with readable := ⟨.noMemory, sector.genIOVMSegments⟩ }

/-- After a `setMemoryDescriptor` that fails, the flag of an unused descriptor says that
its command is in use. -/
theorem dma_commands_stranded :
    ∃ queue m, setupVirtqueue 4 0 true 0 (readyCalls 4 64) = .ok queue ∧
      queue.indirectDescriptors = false ∧
      Run step (fun _ _ => True) (Machine.start queue) [.submit (unprepared 3)] m ∧
      m.submitting = none ∧ m.processing = none ∧ m.inflight = [] ∧
      m.queue.firstUnusedDescriptorIndex = 0 ∧ ¬Tracked m := by
  have played : (play step (fun _ _ => true) [.submit (unprepared 3)]
      (Machine.start (initialQueue 4 true false (readyCalls 4 64)))).map
        (fun m => (m.submitting.isNone && m.processing.isNone && m.inflight.isEmpty,
          m.queue.firstUnusedDescriptorIndex,m.queue.dma 0)) =
      some (true,0,(true,none)) := by decide +kernel
  obtain ⟨m,played,observed⟩ := Option.map_eq_some_iff.mp played
  have run : Run step (fun _ _ => True) _ _ m := run_of_play (fun _ _ _ => trivial) played
  simp only [Prod.mk.injEq,Bool.and_eq_true,Option.isNone_iff_eq_none,List.isEmpty_iff] at observed
  obtain ⟨⟨⟨submitting,processing⟩,inflight⟩,first,flagged⟩ := observed
  refine ⟨_,m,rfl,rfl,run,submitting,processing,inflight,first,?_⟩
  intro tracked
  have set : (m.queue.dma 0).1 = true := by rw [flagged]
  have none : (m.queue.dma 0).2 = none := by rw [flagged]
  exact (tracked.flagged 0).mp set none

end VirtioOsx
