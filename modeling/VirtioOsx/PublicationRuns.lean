import VirtioOsx.CompletionRuns

/-! Whole runs of a queue, seen from the available ring: what the device finds there,
whether it is told about it, and whether a submission's return code says what happened. -/
namespace VirtioOsx

open Runs

/-- The available ring between the device's counter and `head_index`, and the promise of a
notification to a device that sleeps. -/
structure PublicationSafe (n : Nat) (m : Machine) : Prop where
  /-- As many entries as requests that are published and not consumed. -/
  count : uint16Sub m.queue.availableRing.headIndex m.lastAvail = m.unconsumed.length
  /-- Their heads are in the slots from the device's counter on, in submission order. -/
  slots : ∀ j (bound : j < m.unconsumed.length),
    m.queue.availableRing.ring ((m.lastAvail + j) % 65536 % n) = m.unconsumed[j].head
  /-- A device that sleeps on entries has been notified, or the submission that published
  them has yet to test `NO_NOTIFY` and will find it clear. -/
  woken : m.phase = .idle → m.unconsumed ≠ [] →
    m.notified = true ∨ m.submitting = some .notify ∧ notifies m.queue = true

theorem MachineInv.publicationSafe (inv : MachineInv n lost m) : PublicationSafe n m := by
  have few := inv.inflight_le
  have small := inv.accepted.le
  have available := inv.available
  have behind := available.behind
  have fits : m.unconsumed.length ≤ n := by
    simp only [Machine.inflight,List.length_append] at few
    omega
  refine ⟨?_,fun j bound => ?_,fun sleeping waiting => ?_⟩
  · rw [available.headIndex,available.counter]
    simp only [Machine.unconsumed,List.length_drop] at fits ⊢
    unfold uint16Sub
    omega
  · have held := available.window j (by
      simp only [List.length_map,List.length_append]
      exact Nat.lt_of_lt_of_le bound (Nat.le_add_right _ _))
    rw [List.getElem_map,List.getElem_append_left (by exact bound)] at held
    have slot : (m.lastAvail + j) % 65536 % n = (m.fetchedCount + j) % n := by
      rw [available.counter,Nat.mod_add_mod,RingWindow.slot_mod inv.accepted.dvd]
    rw [slot]
    exact held
  · rcases inv.notify.woken sleeping with drained | notified | testing
    · exact absurd drained waiting
    · exact .inl notified
    · exact .inr ⟨testing,inv.notify.clear (by simp [sleeping])⟩

/-- In every run without a submission that corrupts the unused list. -/
theorem publication_safe (n activeFeatures : Nat) (interruptsEnabled : Bool)
    (indirectDescPerRequest : Nat) (calls : SetupCalls) (queue : VirtioVirtqueue)
    (size : n < 65536)
    (built : setupVirtqueue n activeFeatures interruptsEnabled indirectDescPerRequest calls =
      .ok queue)
    (actions : List Action) (m : Machine)
    (run : Run step Sound (Machine.start queue) actions m) : PublicationSafe n m := by
  obtain ⟨lost,inv⟩ := machineInv_run (machineInv_setup size built) run
  exact inv.publicationSafe

theorem publication_safe_resubmission :
    ∃ m, Run step Sound (Machine.start (initialQueue 4 true false (readyCalls 4 64)))
      resubmission m ∧ m.unconsumed.length = 1 ∧ PublicationSafe 4 m := by
  have played : (play step checkSuccessful resubmission
      (Machine.start (initialQueue 4 true false (readyCalls 4 64)))).map
        (fun m => m.unconsumed.length) = some 1 := by decide +kernel
  obtain ⟨m,played,waiting⟩ := Option.map_eq_some_iff.mp played
  have run := (run_of_play successful_of_check played).mono Successful.sound
  exact ⟨m,run,waiting,publication_safe 4 0 true 0 (readyCalls 4 64) _ (by decide) rfl
    resubmission m run⟩

def unmappedRead : SubmitCall :=
  ⟨none, some ⟨9, 512⟩, ⟨1, 2, 9⟩, sector.dma, ⟨.noMemory, sector.genIOVMSegments⟩, sector.dma⟩

/-- A submission sets up no command that is still prepared for another request, as
`setMemoryDescriptor` would refuse it. -/
def FreshCommands (m : Machine) (a : Action) : Prop :=
  ∀ call m', a = .submit call → step a m = some m' → ∀ i < m.queue.numEntries,
    (m.queue.descriptorBuffers i).dmaCmd = none ∨
      (m'.queue.descriptorBuffers i).dmaCmd = (m.queue.descriptorBuffers i).dmaCmd

def checkFresh (m : Machine) : Action → Bool
  | .submit call => (m.submit call).all fun m' => (List.range m.queue.numEntries).all fun i =>
      (m.queue.descriptorBuffers i).dmaCmd.isNone ||
        (m'.queue.descriptorBuffers i).dmaCmd == (m.queue.descriptorBuffers i).dmaCmd
  | _ => true

theorem fresh_of_check (m : Machine) (a : Action) (checked : checkFresh m a = true) :
    FreshCommands m a := by
  rintro call m' rfl taken i inside
  have taken : m.submit call = some m' := taken
  simp only [checkFresh,taken,Option.all_some,List.all_eq_true,List.mem_range,Bool.or_eq_true,
    Option.isNone_iff_eq_none,beq_iff_eq] at checked
  exact checked i inside

def writeFourSectors : SubmitCall :=
  let sectors : ScatterList :=
    ⟨[⟨4096, 512⟩, ⟨16384, 512⟩, ⟨65536, 512⟩, ⟨131072, 512⟩], by simp⟩
  ⟨some ⟨3, 2048⟩, none, ⟨1, 2, 3⟩, sectors.dma, sector.dma, sector.dma⟩

def submitAndPublish (call : SubmitCall) : List Action :=
  [.submit call, .publish, .publish, .publish]

/-- After a rollback that walked into the unused list, the list is a cycle of two behind the
first two descriptors. Requests 4 and 5 get the last descriptors of request 3 once more. The
device returns request 3, and with its chain the descriptors of 4 become unused again. -/
def overfull : List Action :=
  .submit unmappedRead :: submitAndPublish writeFourSectors ++
    submitAndPublish (writeSector 4) ++ submitAndPublish (writeSector 5) ++
    [.kick, .fetch, .complete 0 0, .process 0, .advance, .advance, .advance, .advance, .advance,
      .advance, .advance] ++
    submitAndPublish (writeSector 6) ++ submitAndPublish (writeSector 7) ++
    submitAndPublish (writeSector 8)

/-- The slot of the oldest unconsumed request, whose head is 1, holds the head of the fifth. -/
theorem publication_overwritten :
    setupVirtqueue 4 0 true 0 (readyCalls 4 64) = .ok (initialQueue 4 true false (readyCalls 4 64)) ∧
    ∃ m, Run step FreshCommands
      (Machine.start (initialQueue 4 true false (readyCalls 4 64))) overfull m ∧
      ¬PublicationSafe 4 m := by
  have played : (play step checkFresh overfull
      (Machine.start (initialQueue 4 true false (readyCalls 4 64)))).map
        (fun m => (m.lastAvail, m.queue.availableRing.ring 1, m.unconsumed.map Request.head)) =
          some (1, 3, [1, 0, 1, 2, 3]) := by decide +kernel
  obtain ⟨m,played,shape⟩ := Option.map_eq_some_iff.mp played
  simp only [Prod.mk.injEq] at shape
  obtain ⟨counter,overwritten,heads⟩ := shape
  refine ⟨rfl,m,run_of_play fresh_of_check played,fun safe => ?_⟩
  have five : m.unconsumed.length = 5 := by simpa using congrArg List.length heads
  have oldest : m.unconsumed[0].head = 1 := by
    have first := congrArg (fun l => l[0]?) heads
    simpa [List.getElem?_map,List.getElem?_eq_getElem (show 0 < m.unconsumed.length by omega)]
      using first
  have held := safe.slots 0 (by omega)
  rw [counter,oldest] at held
  rw [show (1 + 0) % 65536 % 4 = 1 from rfl,overwritten] at held
  omega

/-- An indirect submission whose table is mapped with success but not as a whole. -/
def Uncovered (q : VirtioVirtqueue) (call : SubmitCall) : Prop :=
  q.indirectDescriptors = true ∧ 0 ≤ q.firstUnusedDescriptorIndex ∧
    TableUncovered (tableSlots q q.firstUnusedDescriptorIndex.toNat) call

def Faithful (m : Machine) (a : Action) : Prop :=
  ∀ call, a = .submit call → ¬Corrupting m.queue call ∧ ¬Uncovered m.queue call

theorem Faithful.sound (faithful : Faithful m a) : Sound m a :=
  fun call same => (faithful call same).1

theorem buildChain_returned (unused : Unused q free) (fits : free.length ≤ q.numEntries)
    (sound : ¬Corrupting q call) (covered : ¬Uncovered q call)
    (returned : buildChain q call = .returned result q') : result ≠ .success := by
  unfold buildChain at returned
  split at returned
  · rename_i indirect
    cases free with
    | nil =>
      rw [buildIndirectChain_empty unused] at returned
      cases returned
      simp
    | cons i rest =>
      have outcome := buildIndirectChain_spec unused call
      rw [returned] at outcome
      intro success
      have first : q.firstUnusedDescriptorIndex = i := unused.listed.1
      rcases outcome.2 with ⟨failed,_⟩ | ⟨_,uncovered⟩
      · exact failed success
      · refine covered ⟨indirect,by omega,?_⟩
        rw [first,Int.toNat_natCast]
        exact uncovered success
  · rename_i direct
    have outcome := buildDirectChain_spec unused fits fun unlinked =>
      sound ⟨by simpa using direct,unlinked⟩
    rw [returned] at outcome
    exact outcome.1

/-- `head_index` has advanced by one, and the new slot holds the head of a chain that
stores the completion. -/
structure Published (q q' : VirtioVirtqueue) (completion : VirtioCompletion) : Prop where
  advanced : q'.availableRing.headIndex = (q.availableRing.headIndex + 1) % 65536
  chain : ∃ descs, descs ≠ [] ∧ Listed q'.nextDesc
    (q'.availableRing.ring (q.availableRing.headIndex % q.numEntries) : Nat) descs
  stored : q'.completion (q'.availableRing.ring (q.availableRing.headIndex % q.numEntries)) =
    completion

theorem published_of_built (outcome : ChainOutcome q call free (.next (head, q'))) :
    Published q (virtioVirtqueueAddDescriptorToRing q' head) call.completion := by
  obtain ⟨descs,rest,_,starts,_,listed,stored,agree⟩ := outcome
  have slot : (virtioVirtqueueAddDescriptorToRing q' head).availableRing.ring
      (q.availableRing.headIndex % q.numEntries) = head := by
    simp [virtioVirtqueueAddDescriptorToRing,writeHeadIndex,writeRingSlot,agree.availableRing,
      agree.numEntries]
  refine ⟨?_,⟨descs,?_,?_⟩,?_⟩
  · simp [virtioVirtqueueAddDescriptorToRing,writeHeadIndex,writeRingSlot,agree.availableRing]
  · rintro rfl
    simp at starts
  · rw [slot]; exact listed
  · rw [slot]; exact stored

/-- One queue's part of a submission: its return code against its available ring. -/
theorem submitBuffers_agrees (inv : MachineInv n lost m) (sound : ¬Corrupting m.queue call)
    (covered : ¬Uncovered m.queue call) :
    ∃ ret, submitBuffers m.queue call = some ret ∧
      (ret.result = .success ↔ Published m.queue ret.queue call.completion) ∧
      (ret.result ≠ .success →
        ret.queue.availableRing.headIndex = m.queue.availableRing.headIndex) := by
  obtain ⟨free,partition⟩ := inv.partition
  have fits : free.length ≤ m.queue.numEntries := partition.size.symm ▸ partition.fits
  have outcome := buildChain_spec partition.unused fits sound
  have failed : ∀ result q', buildChain m.queue call = .returned result q' → result ≠ .success :=
    fun _ _ returned => buildChain_returned partition.unused fits sound covered returned
  unfold submitBuffers
  revert outcome failed
  cases buildChain m.queue call with
  | stuck => exact fun outcome => outcome.elim
  | next value =>
    intro outcome _
    exact ⟨_,rfl,⟨fun _ => published_of_built outcome,fun _ => rfl⟩,fun bad => absurd rfl bad⟩
  | returned result q' =>
    intro outcome failed
    have failed : result ≠ .success := failed result q' rfl
    obtain ⟨_,_,_,_,agree,_⟩ := outcome
    have same : q'.availableRing.headIndex = m.queue.availableRing.headIndex := by
      rw [agree.availableRing]
    refine ⟨_,rfl,⟨fun good => absurd good failed,fun published => ?_⟩,fun _ => same⟩
    have advanced := published.advanced
    have index := inv.available.headIndex
    simp only at advanced
    omega

/-- The same for the call a client makes: the code is success exactly if the named queue
has published the request, and otherwise no queue's `head_index` has moved. -/
structure CodeAgrees (virtqueues virtqueues' : List VirtioVirtqueue) (queueIndex : Nat)
    (completion : VirtioCompletion) (result : IOReturn) : Prop where
  success : result = .success ↔ ∃ q q', virtqueues[queueIndex]? = some q ∧
    virtqueues'[queueIndex]? = some q' ∧ Published q q' completion
  failure : result ≠ .success → virtqueues'.map (fun q => q.availableRing.headIndex) =
    virtqueues.map fun q => q.availableRing.headIndex

theorem submitBuffersToVirtqueue_agrees (inv : MachineInv n lost m)
    (selected : virtqueues[queueIndex]? = some m.queue) (sound : ¬Corrupting m.queue call)
    (covered : ¬Uncovered m.queue call) :
    ∃ result virtqueues', submitBuffersToVirtqueue virtqueues queueIndex call =
      some (result, virtqueues') ∧
      CodeAgrees virtqueues virtqueues' queueIndex call.completion result := by
  obtain ⟨ret,returned,success,failure⟩ := submitBuffers_agrees inv sound covered
  obtain ⟨inside,value⟩ := List.getElem?_eq_some_iff.mp selected
  have changed : (virtqueues.set queueIndex ret.queue)[queueIndex]? = some ret.queue := by
    rw [List.getElem?_set_self inside]
  refine ⟨ret.result,virtqueues.set queueIndex ret.queue,?_,?_,fun failed => ?_⟩
  · simp [submitBuffersToVirtqueue,selected,returned]
  · rw [success,selected,changed]
    constructor
    · exact fun published => ⟨_,_,rfl,rfl,published⟩
    · rintro ⟨q,q',first,second,published⟩
      rwa [Option.some.inj first,Option.some.inj second]
  · rw [List.map_set,failure failed]
    apply List.ext_getElem?
    intro i
    by_cases same : queueIndex = i
    · subst i
      rw [List.getElem?_set_self (by simpa using inside),List.getElem?_map,selected]
      rfl
    · rw [List.getElem?_set_ne same]

theorem submitBuffersToVirtqueue_unknown (outside : virtqueues.length ≤ queueIndex)
    (call : SubmitCall) :
    ∃ result virtqueues', submitBuffersToVirtqueue virtqueues queueIndex call =
      some (result, virtqueues') ∧
      CodeAgrees virtqueues virtqueues' queueIndex call.completion result := by
  have absent : virtqueues[queueIndex]? = none := List.getElem?_eq_none outside
  refine ⟨.badArgument,virtqueues,by simp [submitBuffersToVirtqueue,absent],?_,fun _ => rfl⟩
  simp [absent]

def acceptedBy (m : Machine) : Action → List VirtioCompletion
  | .submit call => if (submitBuffers m.queue call).map SubmitReturn.result = some .success then
      [call.completion] else []
  | _ => []

def acceptedIn : List Action → Machine → List VirtioCompletion
  | [], _ => []
  | a :: rest, m => acceptedBy m a ++ ((step a m).map (acceptedIn rest)).getD []

/-- A submission adds its completion if, and only if, it returns success. -/
theorem completions_submit (inv : MachineInv n lost m) (faithful : Faithful m (.submit call))
    (taken : m.submit call = some m') :
    m'.completions.Perm (m.completions ++ acceptedBy m (.submit call)) := by
  obtain ⟨free,partition⟩ := inv.partition
  obtain ⟨sound,covered⟩ := faithful call rfl
  have fits : free.length ≤ m.queue.numEntries := partition.size.symm ▸ partition.fits
  obtain ⟨idle,⟨head,queue,built,rfl⟩ | ⟨result,queue,returned,rfl⟩⟩ := Machine.submit_cases taken
  · have accepted : acceptedBy m (.submit call) = [call.completion] := by
      simp [acceptedBy,submitBuffers,built]
    rw [accepted,List.perm_iff_count]
    intro c
    simp only [Machine.completions,Machine.inflight,unpublished,idle,Machine.unconsumed,
      Machine.unprocessed,builtRequest,List.map_append,List.map_cons,List.map_nil,
      List.count_append,List.nil_append]
    omega
  · have failed := buildChain_returned partition.unused fits sound covered returned
    have accepted : acceptedBy m (.submit call) = [] := by
      simp [acceptedBy,submitBuffers,returned,failed]
    rw [accepted,List.append_nil]
    exact List.Perm.refl _

theorem completions_step (inv : MachineInv n lost m) (faithful : Faithful m a)
    (taken : step a m = some m') : m'.completions.Perm (m.completions ++ acceptedBy m a) := by
  have permuted (log : m'.log = m.log) (inflight : m.inflight.Perm m'.inflight) :
      m'.completions.Perm (m.completions ++ []) := by
    rw [Machine.completions,Machine.completions,log,List.append_nil]
    exact (inflight.symm.map _).append_left _
  cases a with
  | submit call => exact completions_submit inv faithful taken
  | publish =>
    refine permuted ?_ (Machine.publish_inflight inv.available.behind taken)
    rcases Machine.publish_cases taken with ⟨r,_,rfl⟩ | ⟨r,_,rfl⟩ | ⟨_,rfl⟩ <;> rfl
  | fetch =>
    refine permuted ?_ (Machine.fetch_inflight taken)
    obtain ⟨_,r,_,rfl⟩ := Machine.fetch_cases taken
    rfl
  | complete i writtenBytes =>
    refine permuted ?_ (Machine.complete_inflight inv.used.processed taken)
    obtain ⟨f,_,rfl⟩ := Option.map_eq_some_iff.mp taken
    rfl
  | advance =>
    obtain ⟨quiet,call,result,busy,moved,rfl⟩ := Machine.advance_cases taken
    obtain ⟨result',progress⟩ := inv.processed quiet busy
    obtain rfl : result = result' := Option.some.inj (moved.symm.trans progress.taken)
    simpa [acceptedBy] using progress.conserved.symm
  | process | suppress | enable | recheck | kick =>
    simp only [step,Machine.process,Machine.suppress,Machine.enable,Machine.recheck,
      Machine.kick] at taken
    split at taken
    · obtain rfl := Option.some.inj taken
      exact permuted rfl (List.Perm.refl _)
    · cases taken

theorem completions_run (inv : MachineInv n lost m) (run : Run step Faithful m actions m') :
    m'.completions.Perm (m.completions ++ acceptedIn actions m) := by
  induction run generalizing lost with
  | nil => simp [acceptedIn]
  | cons faithful taken _ ih =>
    obtain ⟨more,kept,_⟩ := inv.keeps taken (.inl faithful.sound)
    have first := completions_step inv faithful taken
    have later := ih kept
    rw [acceptedIn,taken,Option.map_some,Option.getD_some,← List.append_assoc]
    exact later.trans (first.append_right _)

/-- In every run whose submissions are faithful, a submission's code agrees with its
publication, and the actions invoked or still to come are those of the submissions that
returned success, one for each. -/
theorem return_code_agrees (n activeFeatures : Nat) (interruptsEnabled : Bool)
    (indirectDescPerRequest : Nat) (calls : SetupCalls) (queue : VirtioVirtqueue)
    (size : n < 65536)
    (built : setupVirtqueue n activeFeatures interruptsEnabled indirectDescPerRequest calls =
      .ok queue)
    (actions : List Action) (m : Machine)
    (run : Run step Faithful (Machine.start queue) actions m) :
    (∀ virtqueues queueIndex call, virtqueues[queueIndex]? = some m.queue →
      Faithful m (.submit call) →
      ∃ result virtqueues', submitBuffersToVirtqueue virtqueues queueIndex call =
        some (result, virtqueues') ∧
        CodeAgrees virtqueues virtqueues' queueIndex call.completion result) ∧
    (∀ virtqueues queueIndex call, virtqueues.length ≤ queueIndex →
      ∃ result virtqueues', submitBuffersToVirtqueue virtqueues queueIndex call =
        some (result, virtqueues') ∧
        CodeAgrees virtqueues virtqueues' queueIndex call.completion result) ∧
    (m.log.map Invocation.completion ++ m.inflight.map Request.completion).Perm
      (acceptedIn actions (Machine.start queue)) := by
  have start := machineInv_setup size built
  obtain ⟨lost,inv⟩ := machineInv_run start (run.mono Faithful.sound)
  refine ⟨fun virtqueues queueIndex call selected faithful => ?_,
    fun virtqueues queueIndex call outside => submitBuffersToVirtqueue_unknown outside call,
    completions_run start run⟩
  obtain ⟨sound,covered⟩ := faithful call rfl
  exact submitBuffersToVirtqueue_agrees inv selected sound covered

def checkFaithful (m : Machine) (a : Action) : Bool :=
  checkSuccessful m a && !m.queue.indirectDescriptors

theorem faithful_of_check (m : Machine) (a : Action) (checked : checkFaithful m a = true) :
    Faithful m a := by
  simp only [checkFaithful,Bool.and_eq_true,Bool.not_eq_true'] at checked
  intro call same
  refine ⟨(successful_of_check m a checked.1 call same).not_corrupting,fun uncovered => ?_⟩
  have indirect := uncovered.1
  simp [checked.2] at indirect

theorem return_code_agrees_resubmission :
    ∃ m result virtqueues',
      Run step Faithful (Machine.start (initialQueue 4 true false (readyCalls 4 64)))
        resubmission m ∧
      submitBuffersToVirtqueue [m.queue] 0 (writeSector 8) = some (result, virtqueues') ∧
      CodeAgrees [m.queue] virtqueues' 0 ⟨1, 2, 8⟩ result := by
  have played : (play step checkFaithful resubmission
      (Machine.start (initialQueue 4 true false (readyCalls 4 64)))).map
        (fun m => checkFaithful m (.submit (writeSector 8))) = some true := by decide +kernel
  obtain ⟨m,played,checked⟩ := Option.map_eq_some_iff.mp played
  have run := run_of_play faithful_of_check played
  obtain ⟨result,virtqueues',returned,agrees⟩ :=
    (return_code_agrees 4 0 true 0 (readyCalls 4 64) _ (by decide) rfl resubmission m run).1
      [m.queue] 0 (writeSector 8) rfl (faithful_of_check m _ checked)
  exact ⟨m,result,virtqueues',run,returned,agrees⟩

/-- A command that reports success and the zero bytes it has covered. -/
def unmappedTable : GenIOVMSegments := ⟨fun _ => ⟨[], .success, 0⟩, fun _ => Nat.zero_le _⟩

def untabledSector : SubmitCall :=
  { writeSector 5 with table := ⟨.success, unmappedTable⟩ }

/-- `kIOReturnSuccess` for a request that the device will never see. -/
theorem success_without_publication :
    setupVirtqueue 4 ringIndirectDesc true 4 (readyCalls 4 64) =
      .ok (initialQueue 4 true true (readyCalls 4 64)) ∧
    unmappedTable.Honest ∧
    ∃ virtqueues', submitBuffersToVirtqueue [initialQueue 4 true true (readyCalls 4 64)] 0
        untabledSector = some (.success, virtqueues') ∧
      ¬CodeAgrees [initialQueue 4 true true (readyCalls 4 64)] virtqueues' 0 ⟨1, 2, 5⟩ .success := by
  refine ⟨rfl,fun _ => rfl,?_⟩
  have returned : (submitBuffersToVirtqueue [initialQueue 4 true true (readyCalls 4 64)] 0
      untabledSector).map (fun ret => (ret.1, ret.2.map fun q => q.availableRing.headIndex)) =
        some (.success, [0]) := by decide +kernel
  obtain ⟨⟨result,virtqueues'⟩,returned,shape⟩ := Option.map_eq_some_iff.mp returned
  simp only [Prod.mk.injEq] at shape
  obtain ⟨rfl,unmoved⟩ := shape
  refine ⟨virtqueues',returned,fun agrees => ?_⟩
  obtain ⟨q,q',before,after,published⟩ := agrees.success.mp rfl
  have first : q.availableRing.headIndex = 0 := by
    rw [← Option.some.inj before]
    rfl
  have second : q'.availableRing.headIndex = 0 := by
    have slot := congrArg (fun l => l[0]?) unmoved
    simpa [List.getElem?_map,after] using slot
  have advanced := published.advanced
  omega

end VirtioOsx
