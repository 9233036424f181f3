import VirtioOsx.BlockSystem

/-! Runs of the block device on a virtqueue. The queue takes the steps of a queue, and the
driver those of a driver over a transport that may return anything; what the one has in flight
is what the other has handed over. -/
namespace VirtioOsx

open Runs

namespace BlockSystem

variable {s s' : BlockSystem}

/-- What the driver's bookkeeping makes of a request that comes back: the object is no longer
in flight, and it gives up its memory unless it is a flush, which has none. -/
structure GivenBack (d : VirtioBlockDevice) (request status : Nat) (d' : VirtioBlockDevice) :
    Prop where
  object : ∃ r : VirtioBlockDeviceRequest, d'.requests = Function.update d.requests request r ∧
    r.serial = (d.requests request).serial ∧ r.submitFn = (d.requests request).submitFn ∧
    (r.subranges = [] ∨ (d.requests request).submitFn = some .flush ∧
      r.subranges = (d.requests request).subranges)
  flying : d'.inFlight = d.inFlight.erase request
  pending : d'.pendingRequests = d.pendingRequests
  returned : d'.returned = d.returned ++ [(d.serial request, status)]
  blockSize : d'.blockSize = d.blockSize
  sectorsPerBlock : d'.sectorsPerBlock = d.sectorsPerBlock
  capacityInBytes : d'.capacityInBytes = d.capacityInBytes

theorem GivenBack.work {d d' : VirtioBlockDevice} (back : GivenBack d request status d')
    (other : Nat) : SameWork d d' other := by
  obtain ⟨r,objects,serial,submitFn,_⟩ := back.object
  by_cases here : other = request
  · subst here
    simp [SameWork,VirtioBlockDevice.serial,VirtioBlockDevice.completionOf,objects,serial,submitFn]
  · exact .of_object (by rw [objects,Function.update_of_ne here])

theorem Consistent.answered {m' : Machine} {d' : VirtioBlockDevice} {e : Returned}
    (consistent : s.Consistent) (invokes : s.machine.Invokes e m')
    (back : GivenBack s.device e.fetched.request.completion.ref
      (s.statuses e.fetched.request.completion.ref % 256) d') (loop : Option RetryLoop) :
    Consistent { s with machine := m', device := d', loop := loop } := by
  obtain ⟨flies,completion⟩ := consistent.owner invokes.member
  refine ⟨?_,?_,?_⟩
  · have before := (invokes.inflight.map Request.completion).symm.trans consistent.owns
    have split := (List.perm_cons_erase flies).map s.device.completionOf
    rw [List.map_cons,← completion] at split
    have same : d'.inFlight.map d'.completionOf =
        (s.device.inFlight.erase e.fetched.request.completion.ref).map s.device.completionOf := by
      rw [back.flying]
      exact List.map_congr_left fun request _ => (back.work request).2
    rw [same]
    exact (before.trans split).cons_inv
  · rw [back.pending,back.flying]
    exact consistent.distinct.sublist (List.Sublist.append_left List.erase_sublist _)
  · have serials : d'.serial = s.device.serial := funext fun request => (back.work request).1
    have answers := consistent.answers
    rw [invokes.unprocessed] at answers
    simp only [back.returned,serials,List.append_assoc]
    exact answers

theorem giveBack_returned (d : VirtioBlockDevice) (request status : Nat) :
    (d.giveBack request status).returned = d.returned ++ [(d.serial request, status)] := by
  simp [VirtioBlockDevice.giveBack,VirtioBlockDevice.serial,VirtioBlockDevice.modifyRequest]

/-- The completion of a read or a write runs up to the client's action, and that of a flush up
to the loop; each leads to where the driver's own completion does. -/
theorem completed_cases (member : request ∈ s.device.inFlight) :
    ∃ d' loop, s.completed (s.device.completionOf request) = { s with device := d', loop := loop } ∧
      GivenBack s.device request (s.statuses request % 256) d' ∧
      ((loop = s.loop ∧ ∃ a, blockStep a s.device = some d') ∨
        loop = some (.flush request) ∧ ∀ submits,
          blockStep (.complete request (s.statuses request) submits) s.device =
            some ((RetryLoop.flush request).leave
              (d'.retryPending submits 0 d'.pendingRequests))) := by
  obtain ⟨back,given⟩ : ∃ back, back = s.device.giveBack request (s.statuses request % 256) :=
    ⟨_,rfl⟩
  by_cases kind : (s.device.requests request).submitFn = some .flush
  · refine ⟨back.modifyRequest request fun r =>
      { r with completion := .sync (requestResult (back.requests request).status false) },
      some (.flush request),?_,⟨⟨{ s.device.requests request with
        status := s.statuses request % 256
        completion := .sync (requestResult (s.statuses request % 256) false) },?_,rfl,rfl,
        .inr ⟨kind,rfl⟩⟩,by rw [given]; rfl,by rw [given]; rfl,given ▸ giveBack_returned _ _ _,
        by rw [given]; rfl,by rw [given]; rfl,by rw [given]; rfl⟩,.inr ⟨rfl,fun submits => ?_⟩⟩
    all_goals subst given
    · simp only [completed,VirtioBlockDevice.completionOf,if_pos kind]
      rfl
    · simp [VirtioBlockDevice.giveBack,VirtioBlockDevice.modifyRequest]
    · have same : ((s.device.giveBack request (s.statuses request % 256)).requests
          request).submitFn = some .flush := by
        simpa [VirtioBlockDevice.giveBack,VirtioBlockDevice.modifyRequest] using kind
      simp only [blockStep,VirtioBlockDevice.transportCompletes,if_pos member,same,if_true]
      rfl
  · refine ⟨{ back.callStorageCompletion request false with drainsDue := back.drainsDue + 1 },
      s.loop,?_,⟨⟨{ s.device.requests request with
        status := s.statuses request % 256
        subranges := [] },?_,rfl,rfl,.inl rfl⟩,by rw [given]; rfl,by rw [given]; rfl,
        given ▸ giveBack_returned _ _ _,by rw [given]; rfl,by rw [given]; rfl,by rw [given]; rfl⟩,
      .inl ⟨rfl,?_⟩⟩
    all_goals subst given
    · have block : blockCompleted ≠ flushCompleted := by decide
      simp only [completed,VirtioBlockDevice.completionOf,if_neg kind,if_neg block]
    · simp [VirtioBlockDevice.giveBack,VirtioBlockDevice.modifyRequest,
        VirtioBlockDevice.callStorageCompletion,VirtioBlockDevice.returnRequestToPool,
        VirtioBlockDevice.completeStorage]
    · have same : ((s.device.giveBack request (s.statuses request % 256)).requests
          request).submitFn ≠ some .flush := by
        simpa [VirtioBlockDevice.giveBack,VirtioBlockDevice.modifyRequest] using kind
      refine ⟨.complete request (s.statuses request) fun _ => .success,?_⟩
      simp only [blockStep,VirtioBlockDevice.transportCompletes,if_pos member,if_neg same]

theorem advance_cases (consistent : s.Consistent) (inv : MachineInv n lost s.machine)
    (taken : s.advance = some s') : s.loop = none ∧ ∃ m', s.machine.advance = some m' ∧
      ((s.machine.Unseen m' ∧ s' = { s with machine := m' }) ∨
      ∃ e, s.machine.Invokes e m' ∧ e.fetched.request.completion.ref ∈ s.device.inFlight ∧
        s' = BlockSystem.completed { s with machine := m' }
          (s.device.completionOf e.fetched.request.completion.ref)) := by
  unfold BlockSystem.advance at taken
  split at taken
  case isFalse => cases taken
  rename_i quiet
  simp only [Bool.and_eq_true,Option.isNone_iff_eq_none,beq_iff_eq] at quiet
  obtain ⟨m',moved,same⟩ := Option.map_eq_some_iff.mp taken
  refine ⟨quiet.1,m',moved,?_⟩
  obtain ⟨unseen,silent⟩ | ⟨e,invokes,invoked⟩ := inv.advances moved
  · rw [silent] at same
    exact .inl ⟨unseen,same.symm⟩
  · rw [invoked] at same
    obtain ⟨member,completion⟩ := consistent.owner invokes.member
    refine .inr ⟨e,invokes,member,?_⟩
    rw [← same,← completion]
    rfl

/-- What a step of the whole system is to the queue and to the driver. -/
structure Answered (s : BlockSystem) (act : BlockSystemAction) (d : VirtioBlockDevice)
    (s' : BlockSystem) : Prop where
  queue : QueueMove (s.submission act = some ·) s.machine s'.machine
  driver : ∃ actions d', Run blockStep (fun _ _ => True) d actions d' ∧ s'.Follows d'
  consistent : s'.Consistent

theorem Answered.driverStep {d' : VirtioBlockDevice} (taken : blockStep a d = some d')
    (follows : s'.Follows d') (queue : QueueMove (s.submission act = some ·) s.machine s'.machine)
    (consistent : s'.Consistent) : Answered s act d s' :=
  ⟨queue,⟨[a],d',.cons trivial taken .nil,follows⟩,consistent⟩

theorem Consistent.advance (consistent : s.Consistent) (inv : MachineInv n lost s.machine)
    (follows : s.Follows d) (taken : s.advance = some s') : Answered s .advance d s' := by
  obtain ⟨outside,m',moved,⟨unseen,rfl⟩ | ⟨e,invokes,member,rfl⟩⟩ :=
    advance_cases consistent inv taken
  all_goals
    have queue : QueueMove (s.submission .advance = some ·) s.machine m' :=
      .silent .advance moved (by simp)
  · refine ⟨queue,⟨[],d,.nil,follows⟩,?_⟩
    exact consistent.unmoved unseen rfl (fun _ _ => ⟨rfl,rfl⟩) rfl rfl rfl consistent.distinct
  · have here : s.device = d := by simpa [Follows,outside] using follows
    obtain ⟨d',loop,reached,back,step⟩ := completed_cases (s := { s with machine := m' }) member
    have agrees := consistent.answered invokes back loop
    dsimp only at reached
    rw [reached]
    rcases step with ⟨rfl,a,taken⟩ | ⟨rfl,reaches⟩
    · refine .driverStep (here ▸ taken) ?_ queue agrees
      simp [Follows,outside]
    · refine ⟨queue,⟨[],d,.nil,?_⟩,agrees⟩
      simp only [Follows]
      exact ⟨0,fun submits => .complete _ (s.statuses _) submits,fun submits _ =>
        here ▸ reaches submits⟩

theorem Answered.undriven (follows : s.Follows d) (device : s'.device = s.device)
    (loop : s'.loop = s.loop) (queue : QueueMove (s.submission act = some ·) s.machine s'.machine)
    (consistent : s'.Consistent) : Answered s act d s' := by
  refine ⟨queue,⟨[],d,.nil,?_⟩,consistent⟩
  simpa only [Follows,device,loop] using follows

theorem Consistent.drain (consistent : s.Consistent) (follows : s.Follows d)
    (taken : s.drain = some s') : Answered s .drain d s' := by
  unfold BlockSystem.drain at taken
  split at taken
  case isFalse => cases taken
  rename_i due
  obtain ⟨may,due⟩ := due
  simp only [mayCall,Bool.and_eq_true,Option.isNone_iff_eq_none] at may
  obtain rfl := Option.some.inj taken
  have here : s.device = d := by simpa [Follows,may.2] using follows
  refine ⟨.stays rfl,⟨[],d,.nil,?_⟩,?_⟩
  · refine ⟨0,fun submits => .drain submits,fun submits _ => ?_⟩
    simp only [blockStep,VirtioBlockDevice.drain,← here,if_pos due,
      VirtioBlockDevice.handlePendingRequests,RetryLoop.leave]
    rfl
  · exact consistent.unmoved (.refl _) rfl (fun _ _ => ⟨rfl,rfl⟩) rfl rfl rfl
      consistent.distinct

theorem Consistent.resume (consistent : s.Consistent) (follows : s.Follows d)
    (taken : s.resume request = some s') : Answered s (.resume request) d s' := by
  unfold BlockSystem.resume at taken
  split at taken
  case isFalse => cases taken
  rename_i may
  simp only [mayCall,Bool.and_eq_true,Option.isNone_iff_eq_none] at may
  obtain ⟨d',resumed,rfl⟩ := Option.map_eq_some_iff.mp taken
  have here : s.device = d := by simpa [Follows,may.2] using follows
  have moved : blockStep (.resume request) d = some d' := here ▸ resumed
  obtain ⟨_,rfl⟩ := VirtioBlockDevice.resume_cases resumed
  refine .driverStep moved (by simp [Follows,may.2]) (.stays rfl) ?_
  exact consistent.unmoved (.refl _) rfl (fun _ _ => ⟨rfl,rfl⟩) rfl rfl rfl consistent.distinct

/-- The device writes to a status byte that no returned request has. -/
theorem Consistent.writeStatus (consistent : s.Consistent)
    (taken : s.writeStatus request status = some s') :
    s'.machine = s.machine ∧ s'.device = s.device ∧ s'.loop = s.loop ∧ s'.Consistent := by
  unfold BlockSystem.writeStatus at taken
  split at taken
  case isFalse => cases taken
  rename_i held
  obtain rfl := Option.some.inj taken
  simp only [List.any_eq_true,beq_iff_eq] at held
  obtain ⟨f,held,rfl⟩ := held
  refine ⟨rfl,rfl,rfl,consistent.owns,consistent.distinct,?_⟩
  rw [consistent.answers]
  congr 1
  refine List.map_congr_left fun e member => ?_
  have other := Machine.held_apart consistent.refs_nodup held member
  dsimp only
  rw [Function.update_of_ne other.symm]

theorem Consistent.complete (consistent : s.Consistent) (inv : MachineInv n lost s.machine)
    (taken : s.complete position writtenBytes = some s') :
    s.machine.complete position writtenBytes = some s'.machine ∧ s'.device = s.device ∧
      s'.loop = s.loop ∧ s'.Consistent := by
  obtain ⟨f,held,rest⟩ := Option.bind_eq_some_iff.mp taken
  obtain ⟨m',moved,rfl⟩ := Option.map_eq_some_iff.mp rest
  obtain ⟨inflight,f',again,unprocessed⟩ := inv.completes moved
  obtain rfl := Option.some.inj (held.symm.trans again)
  refine ⟨moved,rfl,rfl,?_,consistent.distinct,?_⟩
  · exact (inflight.symm.map Request.completion).trans consistent.owns
  · simp only [consistent.answers,unprocessed,List.map_append,List.append_assoc]
    rfl

theorem Consistent.transport (consistent : s.Consistent) (inv : MachineInv n lost s.machine)
    (taken : s.transport a = some s') :
    QueueMove (s.submission (.transport a) = some ·) s.machine s'.machine ∧ s'.device = s.device ∧ s'.loop = s.loop ∧
      s'.Consistent := by
  obtain ⟨m',moved,rfl⟩ := Option.map_eq_some_iff.mp taken
  obtain ⟨moved,noSubmit,_,unseen⟩ := inv.transports moved
  refine ⟨.silent a moved noSubmit,rfl,rfl,?_⟩
  exact consistent.unmoved unseen rfl (fun _ _ => ⟨rfl,rfl⟩) rfl rfl rfl consistent.distinct

/-- An iteration of the loop is a submission to the queue. The driver's own step, with all the
iterations, comes when the loop is left. -/
theorem Consistent.retry (consistent : s.Consistent) (follows : s.Follows d)
    (reliable : s.Reliable (.retry dma)) (taken : s.retry dma = some s') :
    Answered s (.retry dma) d s' := by
  obtain ⟨loop,inside,⟨none,rfl⟩ | ⟨next,rest,call,result,machine,pending,asked,completion,sent,
    outcome⟩⟩ := retry_cases taken
  · obtain ⟨a,moved⟩ := follows.emptied inside none
    exact .driverStep moved rfl (.stays rfl) (consistent.leave loop)
  · obtain ⟨sound,published⟩ := reliable call asked
    have transmitted := Machine.transmit_cases published sent
    have queue : QueueMove (s.submission (.retry dma) = some ·) s.machine machine :=
      .submits transmitted sound asked
    rcases outcome with ⟨rfl,rfl⟩ | ⟨failed,rfl⟩
    · refine ⟨queue,⟨[],d,.nil,?_⟩,?_⟩
      · exact follows.handedOver inside pending machine
      · exact consistent.handedOver pending transmitted completion
    · obtain ⟨a,moved⟩ := follows.refused inside pending failed
      refine .driverStep moved rfl queue ?_
      exact (consistent.refused pending transmitted failed).leave loop

theorem perform_idle {called : IOReturn → VirtioBlockDevice}
    (taken : s.perform called a = some s') : s.loop = none := by
  unfold perform at taken
  split at taken
  case isFalse => cases taken
  rename_i may
  simp only [mayCall,Bool.and_eq_true,Option.isNone_iff_eq_none] at may
  exact may.2

theorem Performed.answered {called : IOReturn → VirtioBlockDevice}
    (performed : Performed s called act s') (follows : s.Follows d)
    (taken : ∀ submit, ∃ a, blockStep a s.device = some (called submit)) :
    Answered s act d s' := by
  have here : s.device = d := by simpa [Follows,performed.idle] using follows
  obtain ⟨submit,device⟩ := performed.device
  obtain ⟨a,moved⟩ := taken submit
  refine .driverStep (here ▸ moved) ?_ performed.queue performed.consistent
  simpa only [Follows,performed.loop] using device

/-- The queue is in a run of its own, the driver where one of its own runs leads, and they
agree on what is in flight. -/
structure Refines (n : Nat) (origin : Machine) (s : BlockSystem) (d : VirtioBlockDevice) :
    Prop where
  queue : ∃ actions, Run step Sound origin actions s.machine
  inv : ∃ lost, MachineInv n lost s.machine
  core : ∃ missing, d.Core (n + 32) missing
  follows : s.Follows d
  consistent : s.Consistent

theorem Refines.answered (refines : Refines n origin s d) (reliable : s.Reliable a)
    (taken : blockSystemStep a s = some s') : Answered s a d s' := by
  obtain ⟨lost,inv⟩ := refines.inv
  obtain ⟨missing,core⟩ := refines.core
  have consistent := refines.consistent
  have follows := refines.follows
  have idle {called : IOReturn → VirtioBlockDevice} {a : BlockSystemAction}
      (taken : s.perform called a = some s') : s.device.Core (n + 32) missing := by
    have here : s.device = d := by simpa [Follows,perform_idle taken] using follows
    exact here ▸ core
  cases a with
  | readWrite args dma =>
    have performed : Performed s
        (fun submit => (s.device.doAsyncReadWriteOnWorkLoop args submit).device)
        (.readWrite args dma) s' := by
      refine consistent.performed (idle taken)
        (fun submit => ⟨_,VirtioBlockDevice.doAsyncReadWrite_outcome args submit s.device⟩)
        (fun request call attempt asked => ?_) reliable taken
      simp only [submission,attempt,Option.bind_some] at asked
      exact submitCall_completion asked
    exact performed.answered follows fun submit => ⟨.readWrite args submit,rfl⟩
  | synchronizeCache dma =>
    have performed : Performed s
        (fun submit => (s.device.doSynchronizeCacheOnWorkLoop submit).device)
        (.synchronizeCache dma) s' := by
      refine consistent.performed (idle taken)
        (fun submit => ⟨_,VirtioBlockDevice.doSynchronizeCache_outcome submit s.device⟩)
        (fun request call attempt asked => ?_) reliable taken
      simp only [submission,attempt,Option.bind_some] at asked
      exact submitCall_completion asked
    exact performed.answered follows fun submit => ⟨.synchronizeCache submit,rfl⟩
  | resume request => exact consistent.resume follows taken
  | drain => exact consistent.drain follows taken
  | retry dma => exact consistent.retry follows reliable taken
  | advance => exact consistent.advance inv follows taken
  | writeStatus request status =>
    obtain ⟨machine,device,loop,after⟩ := consistent.writeStatus taken
    exact .undriven follows device loop (.stays machine) after
  | complete position writtenBytes =>
    obtain ⟨moved,device,loop,after⟩ := consistent.complete inv taken
    exact .undriven follows device loop
      (.silent (.complete position writtenBytes) moved (by simp)) after
  | transport a =>
    obtain ⟨queue,device,loop,after⟩ := consistent.transport inv taken
    exact .undriven follows device loop queue after

theorem Refines.keeps (refines : Refines n origin s d) (reliable : s.Reliable a)
    (taken : blockSystemStep a s = some s') :
    ∃ answers d', Run blockStep (fun _ _ => True) d answers d' ∧ Refines n origin s' d' := by
  obtain ⟨part,⟨answers,d',driven,follows⟩,consistent⟩ := refines.answered reliable taken
  obtain ⟨steps,moved⟩ := part.run
  obtain ⟨before,queue⟩ := refines.queue
  obtain ⟨lost,inv⟩ := refines.inv
  refine ⟨answers,d',driven,⟨before ++ steps,queue.append moved⟩,machineInv_run inv moved,?_,
    follows,consistent⟩
  apply Run.keeps (fun d => ∃ missing, d.Core (n + 32) missing) ?_ driven refines.core
  rintro d a next _ taken ⟨missing,core⟩
  obtain ⟨more,kept,_⟩ := core.keeps taken
  exact ⟨_,kept⟩

theorem refines_start {blockSize capacity : Nat} (inv : MachineInv n [] (Machine.start queue))
    (size : queue.numEntries = n) :
    Refines n (Machine.start queue) (start queue blockSize capacity)
      (.started n blockSize capacity) := by
  subst size
  refine ⟨⟨[],.nil⟩,⟨[],inv⟩,⟨[],VirtioBlockDevice.core_started _ _ _⟩,rfl,?_⟩
  have fresh : (VirtioBlockDevice.started queue.numEntries blockSize capacity).inFlight = [] ∧
      (VirtioBlockDevice.started queue.numEntries blockSize capacity).pendingRequests = [] ∧
      (VirtioBlockDevice.started queue.numEntries blockSize capacity).returned = [] := by
    rw [VirtioBlockDevice.started,VirtioBlockDevice.pool_foldl]
    exact ⟨rfl,rfl,rfl⟩
  obtain ⟨flying,pending,returned⟩ := fresh
  refine ⟨?_,?_,?_⟩
  · simp [start,flying,Machine.start,Machine.inflight,Machine.unconsumed,Machine.unprocessed,
      unpublished]
  · simp [start,flying,pending]
  · simp [start,returned,Machine.start,Machine.unprocessed]

/-- The device answers no call twice. -/
theorem Consistent.answered_once (consistent : s.Consistent)
    (core : s.device.Core n missing) : (s.answers.map Prod.fst).Nodup := by
  have serials := consistent.refs.map s.device.serial
  simp only [Machine.inflight,List.map_append,List.map_map,← List.append_assoc] at serials
  have once := core.good.once.nodup_iff.mpr List.nodup_range
  have answered : (s.device.inFlight.map s.device.serial ++
      (s.device.returned.map Prod.fst)).Nodup := by
    refine ((core.good.answered.append_left _).nodup_iff).mpr (once.sublist ?_)
    simp only [VirtioBlockDevice.ledger,List.append_assoc]
    exact List.sublist_append_right _ _
  have flying := ((serials.append_right _).nodup_iff).mpr answered
  rw [List.append_assoc] at flying
  rw [consistent.answers,List.map_append,List.map_map]
  exact (List.perm_append_comm.nodup_iff).mp (List.nodup_append.mp flying).2.1

/-- What the callers of the driver get from the device. -/
structure EndToEnd (n : Nat) (s : BlockSystem) : Prop where
  orderly : s.device.Orderly
  attributed : Attributed n s.machine
  /-- What the queue has in flight are the objects that the driver has handed over. -/
  owns : (s.machine.inflight.map fun r => r.completion.ref).Perm s.device.inFlight
  /-- The device answers no call twice. -/
  once : (s.answers.map Prod.fst).Nodup
  /-- A read or a write is completed with the status byte that its object had when the device
  returned it. -/
  storage : ∀ event ∈ s.device.storageLog, ∃ completion length status,
    s.device.accepted[event.serial]? = some (.readWrite completion length) ∧
    (event.serial, status) ∈ s.answers ∧ event.completion = some completion ∧
    event.result = requestResult status false ∧
    event.actualBytes = if status = 0 then length else 0
  flushes : ∀ event ∈ s.device.flushLog, s.device.accepted[event.serial]? = some .flush ∧
    ∃ status, (event.serial, status) ∈ s.answers ∧
      event.result = some (requestResult status false)
  /-- When the queue is empty again, every accepted call is finished, unless a submission was
  refused when there was nothing left to retry it. -/
  finished : s.machine.inflight = [] → s.device.drainsDue = 0 → s.device.woken = [] →
    s.device.refusedIdle = false →
    (s.device.storageLog.map StorageEvent.serial ++ s.device.flushLog.map FlushEvent.serial).Perm
      (List.range s.device.accepted.length)

theorem Refines.endToEnd (refines : Refines n origin s s.device) (moving : s.device.Moving) :
    EndToEnd n s := by
  obtain ⟨lost,inv⟩ := refines.inv
  obtain ⟨missing,core⟩ := refines.core
  have consistent := refines.consistent
  have orderly := core.orderly
  have recorded : ∀ answer ∈ s.device.returned, answer ∈ s.answers := by
    rw [consistent.answers]
    exact fun answer member => List.mem_append_left _ member
  refine ⟨orderly,inv.attributed,consistent.refs,consistent.answered_once core,?_,?_,?_⟩
  · intro event member
    obtain ⟨completion,length,status,accepted,back,rest⟩ := orderly.storage event member
    exact ⟨completion,length,status,accepted,recorded _ back,rest⟩
  · intro event member
    obtain ⟨accepted,status,back,result⟩ := orderly.flushes event member
    exact ⟨accepted,status,recorded _ back,result⟩
  · intro empty due woken refused
    have refs := consistent.refs
    rw [empty,List.map_nil] at refs
    refine orderly.finished (fun waiting => ?_) refs.nil_eq.symm due woken
    exact (moving waiting).imp id fun later => later.resolve_right (by simp [refused])

theorem refines_run {blockSize capacity : Nat} (inv : MachineInv n [] (Machine.start queue))
    (size : queue.numEntries = n)
    (run : Run blockSystemStep Reliable (start queue blockSize capacity) actions s) :
    ∃ calls d, Run blockStep (fun _ _ => True) (.started n blockSize capacity) calls d ∧
      Refines n (Machine.start queue) s d :=
  run.follows (Refines n (Machine.start queue))
    (fun reliable taken refines => refines.keeps reliable taken) (refines_start inv size)

end BlockSystem

/-- Every run of the driver on a queue is a run of the queue, with the submissions that the
driver makes, and a run of the driver over a transport that is free to return what the queue
returns. While the driver is in its loop, its own step is still to come. -/
theorem block_system_refines (n activeFeatures : Nat) (interruptsEnabled : Bool)
    (indirectDescPerRequest blockSize capacity : Nat) (calls : SetupCalls)
    (queue : VirtioVirtqueue) (size : n < 65536)
    (built : setupVirtqueue n activeFeatures interruptsEnabled indirectDescPerRequest calls =
      .ok queue)
    (actions : List BlockSystemAction) (s : BlockSystem)
    (run : Run blockSystemStep BlockSystem.Reliable (.start queue blockSize capacity) actions s) :
    (∃ steps, Run step Sound (Machine.start queue) steps s.machine) ∧
    (∃ steps d, Run blockStep (fun _ _ => True) (.started n blockSize capacity) steps d ∧
      s.Follows d) ∧
    (s.machine.inflight.map Request.completion).Perm
      (s.device.inFlight.map s.device.completionOf) := by
  have inv := machineInv_setup size built
  obtain ⟨steps,d,driven,refines⟩ := BlockSystem.refines_run inv inv.size run
  exact ⟨refines.queue,⟨steps,d,driven,refines.follows⟩,refines.consistent.owns⟩

/-- Outside its loop, in every run on a queue, the driver gives its callers the answers of the
device. -/
theorem block_system_end_to_end (n activeFeatures : Nat) (interruptsEnabled : Bool)
    (indirectDescPerRequest blockSize capacity : Nat) (calls : SetupCalls)
    (queue : VirtioVirtqueue) (size : n < 65536)
    (built : setupVirtqueue n activeFeatures interruptsEnabled indirectDescPerRequest calls =
      .ok queue)
    (actions : List BlockSystemAction) (s : BlockSystem)
    (run : Run blockSystemStep BlockSystem.Reliable (.start queue blockSize capacity) actions s)
    (outside : s.loop = none) : s.EndToEnd n := by
  have inv := machineInv_setup size built
  obtain ⟨steps,d,driven,refines⟩ := BlockSystem.refines_run inv inv.size run
  have here : s.device = d := by simpa [BlockSystem.Follows,outside] using refines.follows
  subst here
  exact refines.endToEnd (VirtioBlockDevice.moving_run driven)

def checkReliable (s : BlockSystem) (a : BlockSystemAction) : Bool :=
  (s.submission a).all (checkPublishes s.machine)

theorem reliable_of_check (s : BlockSystem) (a : BlockSystemAction)
    (checked : checkReliable s a = true) : s.Reliable a :=
  fun call asked => publishes_of_check ((Option.all_eq_true _ _).mp checked call asked)

def halves (readable writable : Nat) (pos : 0 < readable ∧ 0 < writable) : SubmitDma where
  readable := (ScatterList.mk [⟨4096, readable⟩] (by simp [pos])).dma
  writable := (ScatterList.mk [⟨8192, writable⟩] (by simp [pos])).dma
  table := sector.dma

/-- A read, a flush, and a write for which the queue has no room until the flush is back. -/
def readFlushWriteOnQueue : List BlockSystemAction :=
  [.readWrite ⟨.input, ⟨1, 512⟩, 0, 1, ⟨7, 8, 9⟩⟩ (halves 16 513 (by decide)),
    .transport .publish, .transport .publish, .transport .publish,
    .synchronizeCache (halves 16 1 (by decide)),
    .transport .publish, .transport .publish, .transport .publish,
    .readWrite ⟨.output, ⟨1, 512⟩, 1, 1, ⟨17, 18, 19⟩⟩ (halves 528 1 (by decide)),
    .transport .kick, .transport .fetch, .transport .fetch,
    .writeStatus 34 1, .complete 1 1, .writeStatus 35 0, .complete 0 513,
    .transport (.process 0), .advance, .advance, .retry (halves 528 1 (by decide)),
    .transport .publish, .transport .publish, .transport .publish,
    .retry (halves 528 1 (by decide)), .resume 34, .advance, .advance, .drain,
    .retry (halves 528 1 (by decide)), .advance, .advance, .advance]

theorem readFlushWriteOnQueue_played :
    ∃ s, Run blockSystemStep BlockSystem.Reliable
        (.start (initialQueue 4 true false (readyCalls 4 64)) 512 4096) readFlushWriteOnQueue s ∧
      s.loop = none ∧ s.answers = [(1, 1), (0, 0)] ∧ s.device.inFlight = [33] ∧
      s.device.flushLog = [⟨1, some .ioError⟩] ∧
      s.device.storageLog = [⟨0, some ⟨7, 8, 9⟩, .success, 512⟩] := by
  have played : (play blockSystemStep checkReliable readFlushWriteOnQueue
      (.start (initialQueue 4 true false (readyCalls 4 64)) 512 4096)).any (fun s =>
        s.loop.isNone ∧ s.answers = [(1,1),(0,0)] ∧ s.device.inFlight = [33] ∧
          s.device.flushLog = [⟨1,some .ioError⟩] ∧
          s.device.storageLog = [⟨0,some ⟨7,8,9⟩,.success,512⟩]) = true := by decide +kernel
  obtain ⟨s,played,seen⟩ := (Option.any_eq_true _ _).mp played
  simp only [Option.isNone_iff_eq_none,decide_eq_true_eq] at seen
  exact ⟨s,run_of_play reliable_of_check played,seen⟩

theorem block_system_refines_readFlushWrite :
    ∃ s : BlockSystem, (∃ steps, Run step Sound
        (Machine.start (initialQueue 4 true false (readyCalls 4 64))) steps s.machine) ∧
      (∃ steps d, Run blockStep (fun _ _ => True) (.started 4 512 4096) steps d ∧ s.Follows d) ∧
      (s.machine.inflight.map Request.completion).Perm
        (s.device.inFlight.map s.device.completionOf) ∧ s.device.inFlight = [33] := by
  obtain ⟨s,run,_,_,flying,_⟩ := readFlushWriteOnQueue_played
  obtain ⟨queue,driver,owns⟩ := block_system_refines 4 0 true 0 512 4096 (readyCalls 4 64) _
    (by decide) rfl readFlushWriteOnQueue s run
  exact ⟨s,queue,driver,owns,flying⟩

theorem block_system_end_to_end_readFlushWrite :
    ∃ s : BlockSystem, s.loop = none ∧ s.EndToEnd 4 ∧ s.answers = [(1, 1), (0, 0)] ∧
      s.device.flushLog = [⟨1, some .ioError⟩] := by
  obtain ⟨s,run,outside,answers,_,flushes,_⟩ := readFlushWriteOnQueue_played
  exact ⟨s,outside,block_system_end_to_end 4 0 true 0 512 4096 (readyCalls 4 64) _ (by decide) rfl
    readFlushWriteOnQueue s run outside,answers,flushes⟩

end VirtioOsx
