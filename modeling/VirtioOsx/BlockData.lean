import VirtioOsx.BlockRuns

/-! What the request objects of the block device hold in a run: those of outstanding requests
the header and the subranges of their calls, and the others no memory of a client. -/
namespace VirtioOsx

open Runs

namespace VirtioBlockDevice

def requestLength (d : VirtioBlockDevice) (args : ReadWriteArgs) : Nat :=
  args.nblks * d.blockSize % 2^64

/-- What `doAsyncReadWriteOnWorkLoop` has checked of a call it goes on with. -/
structure Admits (d : VirtioBlockDevice) (args : ReadWriteArgs) : Prop where
  buffer : d.requestLength args ≤ args.buffer.length
  range : (args.block + args.nblks) % 2^64 * d.blockSize % 2^64 ≤ d.capacityInBytes

structure Filled (d : VirtioBlockDevice) (args : ReadWriteArgs) (type : VirtioBlockRequestType)
    (subranges : List SSDCMemoryDescriptorSubrange) (r : VirtioBlockDeviceRequest) : Prop where
  admitted : d.Admits args
  header : r.header = ⟨type, 0, args.block * d.sectorsPerBlock % 2^64⟩
  subranges : r.subranges = subranges
  completion : r.completion = .storage args.completion
  length : r.length = d.requestLength args
  submitFn : r.submitFn = some type

inductive HoldsCall (d : VirtioBlockDevice) (r : VirtioBlockDeviceRequest) : Prop where
  | flush : r.submitFn = some .flush → r.header = ⟨.flush, 0, 0⟩ → r.subranges = [] →
      HoldsCall d r
  | read (args : ReadWriteArgs) : args.direction = .input →
      Filled d args .read
        [⟨.buffer args.buffer, 0, d.requestLength args⟩, ⟨.status, 0, 1⟩] r → HoldsCall d r
  | write (args : ReadWriteArgs) : args.direction = .output →
      Filled d args .write
        [⟨.header, 0, 16⟩, ⟨.buffer args.buffer, 0, d.requestLength args⟩] r → HoldsCall d r

def outstanding (d : VirtioBlockDevice) : List Nat := d.pendingRequests ++ d.inFlight

/-- Outstanding objects hold their calls, and the others no memory. -/
structure Stocked (d : VirtioBlockDevice) : Prop where
  busy : ∀ request ∈ d.outstanding, d.HoldsCall (d.requests request)
  idle : ∀ request, request ∉ d.outstanding → (d.requests request).subranges = []

variable {d d' : VirtioBlockDevice}

/-- What a step that fills no object changes. -/
structure SameData (r r' : VirtioBlockDeviceRequest) : Prop where
  header : r'.header = r.header
  subranges : r'.subranges = r.subranges
  completion : r'.completion = r.completion
  length : r'.length = r.length
  submitFn : r'.submitFn = r.submitFn

theorem SameData.refl (r : VirtioBlockDeviceRequest) : SameData r r := ⟨rfl,rfl,rfl,rfl,rfl⟩

structure SameGeometry (d d' : VirtioBlockDevice) : Prop where
  blockSize : d'.blockSize = d.blockSize
  sectorsPerBlock : d'.sectorsPerBlock = d.sectorsPerBlock
  capacityInBytes : d'.capacityInBytes = d.capacityInBytes

theorem Filled.same {list : List SSDCMemoryDescriptorSubrange}
    (filled : Filled d args type list r) (geometry : SameGeometry d d') (same : SameData r r') :
    Filled d' args type list r' where
  admitted := by
    obtain ⟨buffer,range⟩ := filled.admitted
    refine ⟨?_,?_⟩
    · rwa [requestLength,geometry.blockSize]
    · rwa [geometry.blockSize,geometry.capacityInBytes]
  header := by rw [same.header,filled.header,geometry.sectorsPerBlock]
  subranges := same.subranges.trans filled.subranges
  completion := same.completion.trans filled.completion
  length := by rw [same.length,filled.length,requestLength,requestLength,geometry.blockSize]
  submitFn := same.submitFn.trans filled.submitFn

theorem HoldsCall.same (holds : d.HoldsCall r) (geometry : SameGeometry d d')
    (same : SameData r r') : d'.HoldsCall r' := by
  have length (args : ReadWriteArgs) : d'.requestLength args = d.requestLength args := by
    rw [requestLength,requestLength,geometry.blockSize]
  cases holds with
  | flush submitFn header subranges =>
    exact .flush (same.submitFn.trans submitFn) (same.header.trans header)
      (same.subranges.trans subranges)
  | read args way filled =>
    refine .read args way ?_
    rw [length]
    exact filled.same geometry same
  | write args way filled =>
    refine .write args way ?_
    rw [length]
    exact filled.same geometry same

/-- Steps that load no object: requests may be handed over or come back, and those that come
back give up their memory. -/
theorem Stocked.settled (stocked : d.Stocked) (geometry : SameGeometry d d')
    (fewer : ∀ request ∈ d'.outstanding, request ∈ d.outstanding)
    (same : ∀ request ∈ d'.outstanding, SameData (d.requests request) (d'.requests request))
    (emptied : ∀ request, request ∉ d'.outstanding → (d'.requests request).subranges = []) :
    d'.Stocked where
  busy request member :=
    (stocked.busy request (fewer request member)).same geometry (same request member)
  idle := emptied

theorem retryPending_outstanding (submits : Nat → IOReturn) (k : Nat) (pending : List Nat)
    (d : VirtioBlockDevice) (request : Nat) :
    request ∈ (d.retryPending submits k pending).outstanding ↔
      request ∈ pending ++ d.inFlight := by
  induction pending generalizing d k with
  | nil => simp [retryPending,outstanding]
  | cons next rest ih =>
    rw [retryPending]
    by_cases taken : submits k = .success
    · rw [if_neg (not_not.mpr taken),ih]
      simp only [handOver,List.mem_append,List.mem_cons,List.not_mem_nil,or_false]
      tauto
    · rw [if_pos taken]
      simp [outstanding]

theorem retryPending_geometry (submits : Nat → IOReturn) (k : Nat) (pending : List Nat)
    (d : VirtioBlockDevice) : SameGeometry d (d.retryPending submits k pending) := by
  induction pending generalizing d k with
  | nil => exact ⟨rfl,rfl,rfl⟩
  | cons next rest ih =>
    rw [retryPending]
    split
    · exact ⟨rfl,rfl,rfl⟩
    · obtain ⟨blockSize,sectorsPerBlock,capacityInBytes⟩ := ih (k + 1)
        ({ d with retries := d.retries ++ [(d.serial next,submits k)] }.handOver next)
      exact ⟨blockSize,sectorsPerBlock,capacityInBytes⟩

theorem Stocked.retryPending (stocked : d.Stocked) (submits : Nat → IOReturn) :
    (d.retryPending submits 0 d.pendingRequests).Stocked := by
  obtain ⟨objects,_⟩ := retryPending_requests submits 0 d.pendingRequests d
  have members := retryPending_outstanding submits 0 d.pendingRequests d
  refine stocked.settled (retryPending_geometry submits 0 d.pendingRequests d)
    (fun request member => (members request).mp member) (fun request _ => ?_)
    (fun request away => ?_)
  · rw [objects]
    exact .refl _
  · rw [objects]
    exact stocked.idle request fun member => away ((members request).mpr member)

/-- What becomes of an object that a call has filled: it is outstanding, or the call fails. -/
structure Loaded (d : VirtioBlockDevice) (request : Nat) (r : VirtioBlockDeviceRequest)
    (accepted : Prop) (d' : VirtioBlockDevice) : Prop where
  geometry : SameGeometry d d'
  objects : d'.requests = Function.update d.requests request r
  outstanding : ∀ other, other ∈ d'.outstanding ↔
    other ∈ d.outstanding ∨ accepted ∧ other = request

theorem submitOrDefer_loaded (submit : IOReturn) (request : Nat) (call : BlockCall)
    (r : VirtioBlockDeviceRequest) (rest : List Nat) (d : VirtioBlockDevice) :
    Loaded d request { r with serial := d.accepted.length }
      (({ d.loaded request r with requestPool := rest }.submitOrDefer submit request call).1 =
        .success)
      ({ d.loaded request r with requestPool := rest }.submitOrDefer submit request call).2 := by
  rcases submitOrDefer_cases submit request call
    { d.loaded request r with requestPool := rest } with
    ⟨_,_,equal⟩ | ⟨_,equal⟩ | ⟨_,hard,equal⟩
  · rw [equal]
    refine ⟨⟨rfl,rfl,rfl⟩,by simp [handOver,loaded],fun other => ?_⟩
    simp [outstanding,handOver,loaded,or_assoc]
  · rw [equal]
    refine ⟨⟨rfl,rfl,rfl⟩,by simp [loaded],fun other => ?_⟩
    simp only [outstanding,loaded,List.mem_append,List.mem_singleton,true_and]
    tauto
  · rw [equal]
    refine ⟨⟨rfl,rfl,rfl⟩,by simp [loaded],fun other => ?_⟩
    simp [outstanding,loaded,hard.1]

theorem Stocked.loaded (stocked : d.Stocked) (request : Nat) (r : VirtioBlockDeviceRequest)
    (accepted : Prop) (loaded : Loaded d request r accepted d') (fresh : request ∉ d.outstanding)
    (holds : accepted → d.HoldsCall r) (emptied : ¬accepted → r.subranges = []) :
    d'.Stocked where
  busy other member := by
    rw [loaded.objects]
    rcases (loaded.outstanding other).mp member with old | ⟨taken,rfl⟩
    · have different : other ≠ request := fun same => fresh (same ▸ old)
      rw [Function.update_of_ne different]
      exact (stocked.busy other old).same loaded.geometry (.refl _)
    · rw [Function.update_self]
      exact (holds taken).same loaded.geometry (.refl _)
  idle other away := by
    rw [loaded.objects]
    by_cases here : other = request
    · subst here
      rw [Function.update_self]
      exact emptied fun taken => away ((loaded.outstanding other).mpr (.inr ⟨taken,rfl⟩))
    · rw [Function.update_of_ne here]
      exact stocked.idle other fun old => away ((loaded.outstanding other).mpr (.inl old))

theorem Stocked.finishReadWrite (stocked : d.Stocked) (fresh : request ∉ d.outstanding)
    (holds : ∀ number, d.HoldsCall { r with serial := number }) (rest : List Nat)
    (submit : IOReturn) (call : BlockCall) :
    (finishReadWrite submit request call
      { d.loaded request r with requestPool := rest }).device.Stocked := by
  have loaded := submitOrDefer_loaded submit request call r rest d
  simp only [VirtioBlockDevice.finishReadWrite]
  split
  · rename_i failed
    refine stocked.loaded request { r with serial := d.accepted.length, subranges := [] } False
      ⟨?_,?_,?_⟩ fresh (fun taken => taken.elim) (fun _ => rfl)
    · exact ⟨loaded.geometry.1,loaded.geometry.2,loaded.geometry.3⟩
    · simp [modifyRequest,returnRequestToPool,loaded.objects]
    · intro other
      have members := loaded.outstanding other
      simpa [failed,outstanding,modifyRequest,returnRequestToPool] using members
  · rename_i success
    exact stocked.loaded _ _ _ loaded fresh (fun _ => holds _) fun failed => absurd failed success

theorem Stocked.doAsyncReadWrite (stocked : d.Stocked) (core : Core n leaked d)
    (args : ReadWriteArgs) (submit : IOReturn) :
    (d.doAsyncReadWriteOnWorkLoop args submit).device.Stocked := by
  rw [doAsyncReadWriteOnWorkLoop]
  by_cases small : args.buffer.length < args.nblks * d.blockSize % 2^64
  · rw [if_pos small]
    exact stocked
  rw [if_neg small]
  by_cases beyond : (args.block + args.nblks) % 2^64 * d.blockSize % 2^64 > d.capacityInBytes
  · rw [if_pos beyond]
    exact stocked
  rw [if_neg beyond]
  have admits : d.Admits args := ⟨Nat.not_lt.mp small,Nat.not_lt.mp beyond⟩
  cases pool : d.requestPool with
  | nil => exact stocked
  | cons request rest =>
    have fresh : request ∉ d.outstanding := fun busy =>
      core.pooled (pool ▸ List.mem_cons_self) (List.mem_append_left _ busy)
    -- only the length has been written to the object, which is lost
    have lost : (modifyRequest { d with requestPool := rest } request fun r =>
        { r with length := args.nblks * d.blockSize % 2^64 }).Stocked := by
      refine stocked.loaded request
        { d.requests request with length := args.nblks * d.blockSize % 2^64 } False
        ⟨⟨rfl,rfl,rfl⟩,rfl,fun other => ?_⟩ fresh (fun taken => taken.elim) (fun _ => stocked.idle request fresh)
      simp [outstanding,modifyRequest]
    cases way : args.direction with
    | input =>
      refine stocked.finishReadWrite fresh (fun number => .read args way ?_) rest submit _
      exact ⟨admits,rfl,rfl,rfl,rfl,rfl⟩
    | output =>
      refine stocked.finishReadWrite fresh (fun number => .write args way ?_) rest submit _
      exact ⟨admits,rfl,rfl,rfl,rfl,rfl⟩
    | none => exact lost
    | inOut => exact lost

theorem doSynchronizeCache_pool (submit : IOReturn) (pool : d.requestPool = request :: rest) :
    d.doSynchronizeCacheOnWorkLoop submit =
      let outcome := { d.loaded request { d.requests request with
          header := ⟨.flush,0,0⟩
          submitFn := some .flush } with requestPool := rest }.submitOrDefer submit request .flush
      if outcome.1 ≠ .success then ⟨some outcome.1, outcome.2.returnRequestToPool request⟩
      else ⟨none, outcome.2.modifyRequest request fun r => { r with sleeping := true }⟩ := by
  rw [doSynchronizeCacheOnWorkLoop,pool]
  rfl

theorem Stocked.doSynchronizeCache (stocked : d.Stocked) (core : Core n leaked d)
    (submit : IOReturn) : (d.doSynchronizeCacheOnWorkLoop submit).device.Stocked := by
  cases pool : d.requestPool with
  | nil =>
    rw [doSynchronizeCacheOnWorkLoop,pool]
    exact stocked
  | cons request rest =>
    have fresh : request ∉ d.outstanding := fun busy =>
      core.pooled (pool ▸ List.mem_cons_self) (List.mem_append_left _ busy)
    have empty := stocked.idle request fresh
    have loaded := submitOrDefer_loaded submit request .flush
      { d.requests request with header := ⟨.flush,0,0⟩, submitFn := some .flush } rest d
    rw [doSynchronizeCache_pool submit pool]
    dsimp only
    generalize submitOrDefer submit request .flush _ = outcome at loaded ⊢
    by_cases failed : outcome.1 ≠ .success
    · rw [if_pos failed]
      refine stocked.loaded request _ False ⟨?_,loaded.objects,?_⟩ fresh
        (fun taken => taken.elim) (fun _ => empty)
      · exact ⟨loaded.geometry.1,loaded.geometry.2,loaded.geometry.3⟩
      · intro other
        have members := loaded.outstanding other
        simpa [failed,outstanding,returnRequestToPool] using members
    · rw [if_neg failed]
      refine stocked.loaded request { d.requests request with
          header := ⟨.flush,0,0⟩
          submitFn := some .flush
          serial := d.accepted.length
          sleeping := true } True ⟨?_,?_,?_⟩ fresh (fun _ => .flush rfl rfl empty)
        (fun never => absurd trivial never)
      · exact ⟨loaded.geometry.1,loaded.geometry.2,loaded.geometry.3⟩
      · simp [modifyRequest,loaded.objects]
      · intro other
        have members := loaded.outstanding other
        simpa [not_not.mp failed,outstanding,modifyRequest] using members

/-- An object that the transport gives back is no longer outstanding. -/
theorem Core.given_back (core : Core n leaked d) (member : request ∈ d.inFlight) (other : Nat) :
    other ∈ d.pendingRequests ++ d.inFlight.erase request ↔
      other ∈ d.outstanding ∧ other ≠ request := by
  have apart : request ∉ d.pendingRequests := fun waiting => core.flying member (by simp [waiting])
  have distinct : d.inFlight.Nodup := by
    have nodup := core.nodup
    refine List.Nodup.sublist ?_ nodup
    simp only [used,List.append_assoc]
    refine .trans (List.sublist_append_left _ _) (.trans (List.sublist_append_right _ _)
      (List.sublist_append_right _ _))
  simp only [outstanding,List.mem_append,distinct.mem_erase_iff]
  constructor
  · rintro (waiting | ⟨different,flying⟩)
    · exact ⟨.inl waiting,fun same => apart (same ▸ waiting)⟩
    · exact ⟨.inr flying,different⟩
  · rintro ⟨waiting | flying,different⟩
    · exact .inl waiting
    · exact .inr ⟨different,flying⟩

theorem Stocked.emptied (stocked : d.Stocked) (core : Core n leaked d)
    (member : request ∈ d.inFlight) (geometry : SameGeometry d d')
    (outstanding : d'.outstanding = d.pendingRequests ++ d.inFlight.erase request)
    (objects : d'.requests = Function.update d.requests request r) (empty : r.subranges = []) :
    d'.Stocked := by
  have members := core.given_back member
  refine stocked.settled geometry (fun other here => ?_) (fun other here => ?_)
    (fun other away => ?_)
  · rw [outstanding] at here
    exact ((members other).mp here).1
  · rw [outstanding] at here
    rw [objects,Function.update_of_ne ((members other).mp here).2]
    exact .refl _
  · rw [objects]
    by_cases here : other = request
    · subst here
      rw [Function.update_self]
      exact empty
    · rw [Function.update_of_ne here]
      refine stocked.idle other fun busy => away ?_
      rw [outstanding]
      exact (members other).mpr ⟨busy,here⟩

theorem HoldsCall.flush_empty (holds : d.HoldsCall r) (kind : r.submitFn = some .flush) :
    r.subranges = [] := by
  cases holds with
  | flush _ _ empty => exact empty
  | read _ _ filled =>
    rw [filled.submitFn] at kind
    cases kind
  | write _ _ filled =>
    rw [filled.submitFn] at kind
    cases kind

theorem Stocked.keeps (stocked : d.Stocked) (core : Core n leaked d)
    (taken : blockStep a d = some d') : d'.Stocked := by
  cases a with
  | readWrite args submit =>
    cases taken
    exact stocked.doAsyncReadWrite core args submit
  | synchronizeCache submit =>
    cases taken
    exact stocked.doSynchronizeCache core submit
  | complete request status submits =>
    obtain ⟨member,⟨_,rfl⟩ | ⟨kind,rfl⟩⟩ := transportCompletes_cases taken
    · refine stocked.emptied core member (r := { d.requests request with
        status := status % 256
        subranges := [] }) ⟨rfl,rfl,rfl⟩ rfl ?_ rfl
      simp [giveBack,modifyRequest,callStorageCompletion,returnRequestToPool,completeStorage]
    · obtain ⟨call,_,served⟩ := core.serves request (List.mem_append_right _ member)
      have asleep : (d.requests request).sleeping = true := by
        cases call with
        | readWrite => exact absurd kind served.1
        | flush => exact served.2
      have apart : request ∉ d.pendingRequests := fun waiting =>
        core.flying member (by simp [waiting])
      have empty := (stocked.busy request (List.mem_append_right _ member)).flush_empty kind
      rw [flushRequestCompleted_eq asleep apart]
      refine Stocked.retryPending (d := { d with
        requests := Function.update d.requests request { d.requests request with
          status := status % 256
          completion := .sync (requestResult (status % 256) false)
          sleeping := false }
        inFlight := d.inFlight.erase request
        returned := d.returned ++ [(d.serial request,status % 256)]
        woken := d.woken ++ [request] }) ?_ submits
      exact stocked.emptied core member ⟨rfl,rfl,rfl⟩ rfl rfl empty
  | drain submits =>
    rw [drain_cases taken]
    have due : VirtioBlockDevice.Stocked { d with drainsDue := d.drainsDue - 1 } :=
      ⟨fun request member => (stocked.busy request member).same ⟨rfl,rfl,rfl⟩ (.refl _),
        stocked.idle⟩
    exact due.retryPending submits
  | resume request =>
    obtain ⟨_,rfl⟩ := resume_cases taken
    exact ⟨fun other member => (stocked.busy other member).same ⟨rfl,rfl,rfl⟩ (.refl _),
      stocked.idle⟩

end VirtioBlockDevice

end VirtioOsx
