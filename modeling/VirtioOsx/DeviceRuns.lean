import VirtioOsx.DmaRuns
import VirtioOsx.IndirectView

/-! What the device reads in a whole run. Whatever other requests are submitted, refused or
completed meanwhile, a request that is in flight can be read from its head as the segments
that its own buffers were emitted as. -/
namespace VirtioOsx

open Runs

/-- The descriptors that the buffers of a submission are emitted as, in the mode of the
queue. -/
def emittedEntries (q : VirtioVirtqueue) (call : SubmitCall) : List Entry :=
  if q.indirectDescriptors then
    indirectEntries (tableSlots q q.firstUnusedDescriptorIndex.toNat) call
  else directEntries q call

/-- What can be read from the head of a request, in the queue's table or in the table of the
head. -/
inductive Described (q : VirtioVirtqueue) (r : Request) (entries : List Entry) : Prop where
  | direct : q.indirectDescriptors = false → r.descs.head? = some r.head → r.descs.Nodup →
      Encodes q.descriptorTable r.descs entries → Described q r entries
  | indirect (segment : Segment64) : q.indirectDescriptors = true → r.head ∈ r.descs →
      q.descriptorTable r.head = tableDescriptor segment →
      segment.fLength = entries.length * sizeofTableEntry →
      entries ≠ [] → entries.length < 65536 →
      Encodes (q.descriptorBuffers r.head).indirectDescriptors.entries
        (List.range entries.length) entries → Described q r entries

structure Kept (r : Request) (q q' : VirtioVirtqueue) : Prop where
  indirect : q'.indirectDescriptors = q.indirectDescriptors
  table : ∀ i ∈ r.descs, q'.descriptorTable i = q.descriptorTable i
  buffers : ∀ i ∈ r.descs, q'.descriptorBuffers i = q.descriptorBuffers i

theorem Kept.of_agree (agree : Agree touched q q') (apart : ∀ i ∈ r.descs, i ∉ touched) :
    Kept r q q' :=
  ⟨agree.indirectDescriptors,fun i member => agree.table i (apart i member),
    fun i member => agree.buffers i (apart i member)⟩

theorem Kept.of_untouched (untouched : Untouched m m') : Kept r m.queue m'.queue :=
  ⟨untouched.indirect,fun i _ => congrFun untouched.table i,
    fun i _ => congrFun untouched.buffers i⟩

theorem Described.kept (described : Described q r entries) (kept : Kept r q q') :
    Described q' r entries := by
  cases described with
  | direct mode starts distinct encodes =>
    exact .direct (kept.indirect.trans mode) starts distinct (encodes.congr kept.table)
  | indirect segment mode head descriptor length nonempty few encodes =>
    refine .indirect segment (kept.indirect.trans mode) head ?_ length nonempty few ?_
    · rw [kept.table r.head head]
      exact descriptor
    · rw [kept.buffers r.head head]
      exact encodes

/-- The tables are at the addresses that their commands mapped them to. -/
def TableVisible (memory : Nat → Nat → VirtioVringDesc) (q : VirtioVirtqueue) (head : Nat) : Prop :=
  q.indirectDescriptors = true → memory (q.descriptorTable head).physAddress =
    (q.descriptorBuffers head).indirectDescriptors.entries

theorem Described.deviceRequest (described : Described q r entries)
    (inside : ∀ i ∈ r.descs, i < n) (mapped : TableVisible memory q r.head) :
    deviceRequest memory q.descriptorTable n r.head =
      some (entries.map fun e => e.1.seen e.2) := by
  cases described with
  | direct mode starts distinct encodes =>
    obtain ⟨tail,split⟩ := List.head?_eq_some_iff.mp starts
    rw [split] at encodes distinct inside
    have walk := encodes.walked (length_le_of_small distinct inside)
    have plain : (q.descriptorTable r.head).flags &&& VirtioVringDescFlag.indirect = 0 := by
      match entries, encodes with
      | entry :: entries, encodes =>
        have seen := deviceSegment_descriptorOf entry tail.head?
        rw [← encodes.1] at seen
        have direct := congrArg DeviceSegment.indirect seen
        simpa [deviceSegment,Segment64.seen] using direct
    rw [VirtioOsx.deviceRequest,if_pos plain,walk,Option.map_some,encodes.seen]
  | indirect segment mode head descriptor length nonempty few encodes =>
    have flags : ¬(q.descriptorTable r.head).flags &&& VirtioVringDescFlag.indirect = 0 := by
      simp [descriptor,tableDescriptor,VirtioVringDescFlag.indirect]
    have bound : (q.descriptorTable r.head).lengthBytes / sizeofTableEntry = entries.length := by
      rw [descriptor]
      simp only [tableDescriptor,length,sizeofTableEntry]
      omega
    have walk := encodes.walked_range nonempty (Nat.le_refl _)
    rw [VirtioOsx.deviceRequest,if_neg flags]
    dsimp only
    rw [mapped mode,bound,walk,Option.map_some,encodes.seen]

/-- The commands of a submission report the bytes that their segments cover. -/
structure SubmitCall.Honest (call : SubmitCall) : Prop where
  readable : call.readable.genIOVMSegments.Honest
  writable : call.writable.genIOVMSegments.Honest
  table : call.table.genIOVMSegments.Honest

/-- A submission that does not corrupt the unused list. The entries of a table are counted
in 16 bits. -/
structure Emittable (q : VirtioVirtqueue) (call : SubmitCall) : Prop where
  sound : ¬Corrupting q call
  honest : q.indirectDescriptors = true → call.Honest
  few : q.indirectDescriptors = true → (emittedEntries q call).length < 65536

theorem GenOutcome.Covers.nonempty {outcome : GenOutcome} (covers : outcome.Covers buf)
    (reported : outcome.offset = byteCount outcome.segments) (length : buf.length ≠ 0) :
    outcome.segments ≠ [] := by
  intro none
  apply length
  rw [← covers.2,reported,none]
  rfl

theorem describedBuffer_length (described : describedBuffer buf = some md) : md.length ≠ 0 := by
  obtain ⟨_,kept⟩ := Option.filter_eq_some_iff.mp described
  simpa using kept

theorem indirectEntries_nonempty (honest : call.Honest) (asked : call.minDescsRequired ≠ 0)
    (readable : ∀ buf, call.readableBuffer = some buf → (readableOutcome slots call).Covers buf)
    (writable : ∀ buf, call.writableBuffer = some buf → (writableOutcome slots call).Covers buf) :
    indirectEntries slots call ≠ [] := by
  intro none
  obtain ⟨first,second⟩ := List.append_eq_nil_iff.mp none
  rw [List.map_eq_nil_iff] at first second
  cases present : call.readableBuffer with
  | some buf =>
    have covers := readable buf present
    apply covers.nonempty (honest.readable _) (describedBuffer_length present)
    simpa [indirectReadable,present] using first
  | none =>
    cases other : call.writableBuffer with
    | some buf =>
      have covers := writable buf other
      apply covers.nonempty (honest.writable _) (describedBuffer_length other)
      simpa [indirectWritable,other] using second
    | none => exact asked (by simp [SubmitCall.minDescsRequired,present,other])

/-- A chain that has been built describes the whole of both buffers. -/
theorem buildIndirectChain_covers (unused : Unused q (i :: rest))
    (built : buildIndirectChain q call = .next (head, q')) :
    call.minDescsRequired ≠ 0 ∧
      (∀ buf, call.readableBuffer = some buf →
        (readableOutcome (tableSlots q i) call).Covers buf) ∧
      ∀ buf, call.writableBuffer = some buf →
        (writableOutcome (tableSlots q i) call).Covers buf := by
  have bound : i < 32768 := unused.small i List.mem_cons_self
  have fresh : i ∉ rest := (List.nodup_cons.mp unused.nodup).1
  rw [buildIndirectChain_eq unused] at built
  split at built
  · cases built
  split at built
  · cases built
  rename_i asked
  have marked := quiet_modifyBuffer (tableReserved q i) i
    (fun buffer => { buffer with dmaCmdUsed := true }) fun _ => rfl
  have free := unused.tableReserved.quiet marked
  have fill := fillIndirectTable_spec free fresh bound call (tableSlots q i)
  revert built fill
  cases fillIndirectTable _ i call (tableSlots q i) with
  | returned result queue => exact fun built => by cases built
  | stuck => exact fun built => by cases built
  | next output =>
    rintro _ ⟨_,_,readable,writable⟩
    exact ⟨asked,readable,writable⟩

/-- A chain that has been built can be read from its head, and nothing else has changed but
the unused list. -/
theorem buildChain_described (unused : Unused q free) (fits : free.length ≤ q.numEntries)
    (emittable : Emittable q call) (built : buildChain q call = .next (head, q')) :
    ∃ descs rest, free = descs ++ rest ∧ Agree descs q q' ∧
      builtRequest q' head call.completion = ⟨head,descs,call.completion⟩ ∧
      Described q' ⟨head,descs,call.completion⟩ (emittedEntries q call) := by
  by_cases mode : q.indirectDescriptors = true
  · have built' : buildIndirectChain q call = .next (head,q') := by
      simpa [buildChain,mode] using built
    cases free with
    | nil =>
      rw [buildIndirectChain_empty unused] at built'
      cases built'
    | cons i rest =>
      have first : q.firstUnusedDescriptorIndex = i := unused.listed.1
      have entries : emittedEntries q call = indirectEntries (tableSlots q i) call := by
        rw [emittedEntries,if_pos mode,first,Int.toNat_natCast]
      have few := emittable.few mode
      rw [entries] at few ⊢
      have room : (indirectReadable (tableSlots q i) call).length +
          (indirectWritable (tableSlots q i) call).length < 65536 := by
        simpa [indirectEntries] using few
      have honest := emittable.honest mode
      have chain := buildIndirectChain_encodes unused room built'
      obtain ⟨asked,readable,writable⟩ := buildIndirectChain_covers unused built'
      have nonempty := indirectEntries_nonempty honest asked readable writable
      have outcome := buildIndirectChain_spec unused call
      rw [built'] at outcome
      obtain ⟨rfl,_,ends,_,agree⟩ := outcome
      obtain ⟨segment,emitted,descriptor,offset⟩ := chain.described
      have length : segment.fLength =
          (indirectEntries (tableSlots q head) call).length * sizeofTableEntry := by
        have covered := honest.table 1
        rw [offset,emitted] at covered
        simpa [byteCount] using covered.symm
      have listed : Listed q'.nextDesc head [head] := ⟨rfl,ends⟩
      refine ⟨[head],rest,rfl,agree,?_,.indirect segment
        (agree.indirectDescriptors.trans mode) List.mem_cons_self descriptor length nonempty few
        chain.encodes⟩
      rw [builtRequest,followNextDesc_eq listed (by
        have size : q'.numEntries = q.numEntries := agree.numEntries
        simp only [List.length_cons] at fits
        simp only [List.length_singleton]
        omega)]
  · have direct : q.indirectDescriptors = false := by simpa using mode
    have built' : buildDirectChain q call = .next (head,q') := by
      simpa [buildChain,direct] using built
    have outcome := buildDirectChain_spec unused fits fun unlinked =>
      emittable.sound ⟨direct,unlinked⟩
    rw [built'] at outcome
    obtain ⟨descs,rest,split,chain⟩ := outcome
    have distinct : descs.Nodup := by
      have nodup := unused.nodup
      rw [split] at nodup
      exact (List.nodup_append.mp nodup).1
    refine ⟨descs,rest,split,chain.agree,?_,?_⟩
    · have size : q'.numEntries = q.numEntries := chain.agree.numEntries
      rw [split,List.length_append] at fits
      rw [builtRequest,followNextDesc_eq chain.listed (by omega)]
    · rw [emittedEntries,if_neg mode]
      exact .direct (chain.agree.indirectDescriptors.trans direct) chain.starts distinct
        chain.encodes

/-- A submission that is accepted has built the chain of its request, which is in flight from
then on. -/
theorem MachineInv.accepted_described (inv : MachineInv n lost m)
    (emittable : Emittable m.queue call)
    (taken : m.submit call = some m') (accepted : m'.submitting = some (.slot r)) :
    r ∈ m'.inflight ∧ Described m'.queue r (emittedEntries m.queue call) := by
  obtain ⟨free,partition⟩ := inv.partition
  have fits : free.length ≤ m.queue.numEntries := partition.size.symm ▸ partition.fits
  obtain ⟨idle,⟨head,queue,built,rfl⟩ | ⟨result,queue,left,rfl⟩⟩ := Machine.submit_cases taken
  · obtain ⟨descs,rest,_,_,request,described⟩ :=
      buildChain_described partition.unused fits emittable built
    obtain rfl : builtRequest queue head call.completion = r := by simpa using accepted
    refine ⟨by simp [Machine.inflight,unpublished],?_⟩
    rw [request]
    exact described
  · simp [idle] at accepted

/-- A step of a processing call leaves the descriptors alone, or it releases the chain of the
oldest request that the device has returned and invokes its completion. -/
theorem MachineInv.advanced (inv : MachineInv n lost m) (taken : m.advance = some m') :
    m'.returned = m.returned ∧
    (Untouched m m' ∨ ∃ e, m.submitting = none ∧ m.returned[m.log.length]? = some e ∧
      m'.log = m.log ++ [e.invocation] ∧ m'.inflight = m.later ∧
      Agree e.fetched.request.descs m.queue m'.queue) := by
  obtain ⟨quiet,call,result,busy,moved,rfl⟩ := Machine.advance_cases taken
  refine ⟨rfl,?_⟩
  rcases processCompletedRequests_cases moved with ⟨silent,buffers,table,indirect⟩ |
    ⟨current,next,q',place,more,released,rfl⟩
  · refine .inl ⟨buffers,table,indirect,?_,by simp [Machine.processed,silent]⟩
    simp [Machine.inflight,Machine.processed,Machine.unconsumed,Machine.unprocessed,silent]
  · obtain ⟨free,partition⟩ := inv.partition
    have position := inv.position
    rw [busy] at position
    obtain ⟨limit,total,_⟩ := call
    obtain rfl := place
    obtain ⟨rfl,index,seen,value,least,most⟩ := position
    obtain ⟨_,entry,oldest⟩ := Machine.oldest index value least most more
    obtain ⟨element,head⟩ := inv.element quiet oldest index
    have front := partition.permute (Machine.inflight_oldest quiet oldest)
    have holding := front.holding _ List.mem_cons_self
    rw [element] at released ⊢
    simp only [head,inv.size] at released
    obtain ⟨q'',again,_,agree⟩ := front.release neutral_clearCompleted inv.accepted.le
    obtain rfl : q' = q'' := Option.some.inj (released.symm.trans again)
    refine .inr ⟨entry,quiet,oldest,?_,inflight_invoked quiet,agree⟩
    simp [Machine.processed,Returned.invocation,holding.completion]

/-- Every step changes descriptors only where no request is in flight, except for the one
that releases a request. -/
theorem MachineInv.kept (inv : MachineInv n lost m) (sound : Sound m a)
    (taken : step a m = some m') (member : r ∈ m.inflight) (still : r ∈ m'.inflight) :
    Kept r m.queue m'.queue := by
  obtain ⟨free,partition⟩ := inv.partition
  by_cases submitting : ∃ call, a = .submit call
  · obtain ⟨call,rfl⟩ := submitting
    have fits : free.length ≤ m.queue.numEntries := partition.size.symm ▸ partition.fits
    have outcome := buildChain_spec partition.unused fits (sound call rfl)
    obtain ⟨_,⟨head,queue,built,rfl⟩ | ⟨result,queue,left,rfl⟩⟩ := Machine.submit_cases taken
    · rw [built] at outcome
      obtain ⟨descs,rest,split,_,_,_,_,agree⟩ := outcome
      refine .of_agree agree fun i inside there => partition.apart member i inside ?_
      rw [split]
      exact List.mem_append_left rest there
    · rw [left] at outcome
      obtain ⟨_,_,_,_,agree,_⟩ := outcome
      exact .of_agree agree (partition.apart member)
  by_cases advancing : a = .advance
  · subst a
    rcases (inv.advanced taken).2 with untouched | ⟨e,quiet,oldest,_,inflight,agree⟩
    · exact .of_untouched untouched
    · have front := partition.permute (Machine.inflight_oldest quiet oldest)
      rw [inflight] at still
      exact .of_agree agree fun i inside => front.disjoint still inside
  · exact .of_untouched (inv.untouched taken (not_exists.mp submitting) advancing)

structure ReadableAs (n : Nat) (m : Machine) (r : Request) (segments : List DeviceSegment) :
    Prop where
  request : ∀ memory, TableVisible memory m.queue r.head →
    deviceRequest memory m.queue.descriptorTable n r.head = some segments
  /-- The index that the device has read from the ring, if it has taken the request. -/
  taken : ∀ f ∈ m.owned, f.request = r → f.head = r.head
  /-- The index that it reads from the ring, if it takes the request next. -/
  next : m.published[m.fetchedCount]? = some r →
    m.queue.availableRing.ring (m.lastAvail % m.queue.numEntries) = r.head

theorem MachineInv.readableAs (inv : MachineInv n lost m) (member : r ∈ m.inflight)
    (described : Described m.queue r entries) :
    ReadableAs n m r (entries.map fun e => e.1.seen e.2) := by
  obtain ⟨free,partition⟩ := inv.partition
  have inside : ∀ i ∈ r.descs, i < n := fun i there => partition.bound
    (List.mem_append_right _ (List.mem_append_left _ (List.mem_flatMap.mpr ⟨r,member,there⟩)))
  refine ⟨fun memory mapped => described.deviceRequest inside mapped,?_,fun oldest => ?_⟩
  · rintro f held rfl
    exact inv.attribution.heads f (List.mem_append_left _ held)
  · rw [inv.size]
    exact inv.available.slot_eq inv.accepted oldest

/-- From the submission that is accepted until the step that releases it, a request can be
read from its head as the segments that its buffers were emitted as, in every run whose
submissions do not corrupt the unused list. -/
theorem submission_stays_readable (n activeFeatures : Nat) (interruptsEnabled : Bool)
    (indirectDescPerRequest : Nat) (calls : SetupCalls) (queue : VirtioVirtqueue)
    (size : n < 65536)
    (built : setupVirtqueue n activeFeatures interruptsEnabled indirectDescPerRequest calls =
      .ok queue)
    (before : List Action) (m : Machine) (run : Run step Sound (Machine.start queue) before m)
    (call : SubmitCall) (emittable : Emittable m.queue call) (first : Machine)
    (submitted : step (.submit call) m = some first) (r : Request)
    (accepted : first.submitting = some (.slot r))
    (after : List Action) (last : Machine)
    (later : Run step (fun m a => Sound m a ∧ r ∈ m.inflight) first after last)
    (still : r ∈ last.inflight) :
    ReadableAs n last r ((emittedEntries m.queue call).map fun e => e.1.seen e.2) := by
  obtain ⟨lost,inv⟩ := machineInv_run (machineInv_setup size built) run
  obtain ⟨_,described⟩ := inv.accepted_described emittable submitted accepted
  have sound : Sound m (.submit call) := by
    rintro other same
    obtain rfl := Action.submit.inj same
    exact emittable.sound
  obtain ⟨more,kept,_⟩ := inv.keeps submitted (.inl sound)
  obtain ⟨⟨lost',inv'⟩,readable⟩ := Run.keeps
    (fun m' => (∃ lost, MachineInv n lost m') ∧
      (r ∈ m'.inflight → Described m'.queue r (emittedEntries m.queue call)))
    (by
      rintro s a next ⟨sound,member⟩ taken ⟨⟨lost,inv⟩,described⟩
      obtain ⟨more,kept,_⟩ := inv.keeps taken (.inl sound)
      exact ⟨⟨_,kept⟩,fun still => (described member).kept (inv.kept sound taken member still)⟩)
    later ⟨⟨_,kept⟩,fun _ => described⟩
  exact inv'.readableAs still (readable still)

/-- The device works on the exchange while another request is submitted and completed. -/
def overtakenExchange : List Action :=
  [.publish, .publish, .publish, .kick, .fetch, .submit (writeSector 4), .publish, .publish,
    .publish, .fetch, .complete 1 7, .process 0, .advance, .advance]

def exchangeRequest : Request := ⟨0, [0, 1, 2], ⟨1, 2, 3⟩⟩

def checkInFlight (m : Machine) (a : Action) : Bool :=
  checkSuccessful m a && m.inflight.contains exchangeRequest

theorem submission_stays_readable_overtaken :
    ∃ first last, step (.submit exchange) (Machine.start
        (initialQueue 4 true false (readyCalls 4 64))) = some first ∧
      Run step (fun m a => Sound m a ∧ exchangeRequest ∈ m.inflight) first overtakenExchange last ∧
      last.log = [⟨⟨1,2,4⟩,false,7⟩] ∧
      ReadableAs 4 last exchangeRequest
        [⟨8192,512,false,false⟩,⟨16384,100,false,false⟩,⟨4096,512,true,false⟩] := by
  have successful : Succeeds (initialQueue 4 true false (readyCalls 4 64)) exchange := by
    unfold Succeeds
    decide +kernel
  have entered : (step (.submit exchange) (Machine.start
      (initialQueue 4 true false (readyCalls 4 64)))).map Machine.submitting =
        some (some (.slot exchangeRequest)) := by decide +kernel
  have played : ((step (.submit exchange) (Machine.start
      (initialQueue 4 true false (readyCalls 4 64)))).bind
        (play step checkInFlight overtakenExchange)).map
          (fun m => (m.log,m.inflight.contains exchangeRequest)) =
      some ([⟨⟨1,2,4⟩,false,7⟩],true) := by decide +kernel
  obtain ⟨first,submitted,accepted⟩ := Option.map_eq_some_iff.mp entered
  rw [submitted,Option.bind_some] at played
  obtain ⟨last,played,observed⟩ := Option.map_eq_some_iff.mp played
  obtain ⟨log,still⟩ := Prod.mk.inj observed
  have later : Run step (fun m a => Sound m a ∧ exchangeRequest ∈ m.inflight) first
      overtakenExchange last := by
    refine run_of_play ?_ played
    intro m a checked
    simp only [checkInFlight,Bool.and_eq_true,List.contains_iff_mem] at checked
    exact ⟨(successful_of_check m a checked.1).sound,checked.2⟩
  have direct : (initialQueue 4 true false (readyCalls 4 64)).indirectDescriptors ≠ true := by
    simp [initialQueue]
  have emittable : Emittable (initialQueue 4 true false (readyCalls 4 64)) exchange :=
    ⟨successful.not_corrupting,fun mode => absurd mode direct,fun mode => absurd mode direct⟩
  have readable : ReadableAs 4 last exchangeRequest ((emittedEntries (Machine.start
      (initialQueue 4 true false (readyCalls 4 64))).queue exchange).map fun e => e.1.seen e.2) :=
    submission_stays_readable 4 0 true 0 (readyCalls 4 64) _ (by decide) rfl [] _ .nil exchange
      emittable first submitted exchangeRequest accepted overtakenExchange last later
      (by simpa using still)
  have entries : ((emittedEntries (Machine.start
      (initialQueue 4 true false (readyCalls 4 64))).queue exchange).map fun e => e.1.seen e.2) =
      [⟨8192,512,false,false⟩,⟨16384,100,false,false⟩,⟨4096,512,true,false⟩] := by decide +kernel
  rw [entries] at readable
  exact ⟨first,last,submitted,later,log,readable⟩

end VirtioOsx
