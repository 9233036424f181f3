import VirtioOsx.BlockDevice
import VirtioOsx.Lib.Runs

/-! Runs of the block device over a transport that is not reset. The calls, by their serial
numbers, move through a ledger: from the pending requests to the transport, and from there to
the caller. The device follows the ledger, and its request objects follow the calls. -/
namespace VirtioOsx

open Runs

structure BlockLedger where
  accepted : Nat
  pending : List Nat
  inFlight : List Nat
  woken : List Nat
  storage : List Nat
  flushes : List Nat
  handed : List Nat
  returned : List Nat

namespace BlockLedger

/-- Every accepted call is in exactly one place, calls are handed over in the order in which
they were accepted, and each call that is not with the driver or the transport has been
answered once. -/
structure Good (l : BlockLedger) : Prop where
  order : l.handed ++ l.pending = List.range l.accepted
  once : (l.pending ++ l.inFlight ++ l.woken ++ l.storage ++ l.flushes).Perm
    (List.range l.accepted)
  answered : l.returned.Perm (l.woken ++ l.storage ++ l.flushes)

theorem Good.handOver {l : BlockLedger} (good : l.Good) (none : l.pending = []) :
    Good { l with
      accepted := l.accepted + 1
      inFlight := l.inFlight ++ [l.accepted]
      handed := l.handed ++ [l.accepted] } where
  order := by
    have order := good.order
    rw [none,List.append_nil] at order
    simp only [none,order,List.append_nil,List.range_succ]
  once := by
    have once := good.once
    rw [List.perm_iff_count] at once ⊢
    intro serial
    have here := once serial
    simp only [List.range_succ,List.count_append] at here ⊢
    omega
  answered := good.answered

theorem Good.defer {l : BlockLedger} (good : l.Good) :
    Good { l with accepted := l.accepted + 1, pending := l.pending ++ [l.accepted] } where
  order := by
    simp only [← List.append_assoc,good.order,List.range_succ]
  once := by
    have once := good.once
    rw [List.perm_iff_count] at once ⊢
    intro serial
    have here := once serial
    simp only [List.range_succ,List.count_append] at here ⊢
    omega
  answered := good.answered

theorem Good.retry {l : BlockLedger} (good : l.Good) (first : l.pending = serial :: rest) :
    Good { l with
      pending := rest
      inFlight := l.inFlight ++ [serial]
      handed := l.handed ++ [serial] } where
  order := by
    have order := good.order
    rw [first] at order
    simpa using order
  once := by
    refine List.Perm.trans ?_ good.once
    rw [first,List.perm_iff_count]
    intro other
    simp only [List.count_append,List.count_cons,List.count_nil]
    omega
  answered := good.answered

/-- The transport returns a call, and it is answered: a read or write at once, the caller of
a flush by being woken. -/
theorem Good.answer {l : BlockLedger} {wakes finished : List Nat} (good : l.Good)
    (taken : l.inFlight.Perm (serial :: rest))
    (moved : (wakes ++ finished).Perm (l.woken ++ l.storage ++ [serial])) :
    Good { l with
      inFlight := rest
      woken := wakes
      storage := finished
      returned := l.returned ++ [serial] } where
  order := good.order
  once := by
    refine List.Perm.trans ?_ good.once
    rw [List.perm_iff_count] at taken moved ⊢
    intro other
    have here := taken other
    have there := moved other
    simp only [List.count_append,List.count_cons,List.count_nil] at here there ⊢
    omega
  answered := by
    have answered := good.answered
    rw [List.perm_iff_count] at answered moved ⊢
    intro other
    have here := answered other
    have there := moved other
    simp only [List.count_append] at here there ⊢
    omega

theorem Good.finish {l : BlockLedger} (good : l.Good) (taken : l.inFlight.Perm (serial :: rest)) :
    Good { l with
      inFlight := rest
      storage := l.storage ++ [serial]
      returned := l.returned ++ [serial] } :=
  good.answer taken (by simp)

theorem Good.wake {l : BlockLedger} (good : l.Good) (taken : l.inFlight.Perm (serial :: rest)) :
    Good { l with
      inFlight := rest
      woken := l.woken ++ [serial]
      returned := l.returned ++ [serial] } := by
  apply good.answer taken
  rw [List.append_assoc,List.append_assoc]
  exact List.perm_append_comm.append_left _

theorem Good.resume {l : BlockLedger} (good : l.Good) (taken : l.woken.Perm (serial :: rest)) :
    Good { l with woken := rest, flushes := l.flushes ++ [serial] } where
  order := good.order
  once := by
    refine List.Perm.trans ?_ good.once
    rw [List.perm_iff_count] at taken ⊢
    intro other
    have here := taken other
    simp only [List.count_append,List.count_cons,List.count_nil] at here ⊢
    omega
  answered := by
    refine good.answered.trans ?_
    rw [List.perm_iff_count] at taken ⊢
    intro other
    have here := taken other
    simp only [List.count_append,List.count_cons,List.count_nil] at here ⊢
    omega

end BlockLedger

/-- The object holds what its call needs to be finished. -/
def BlockCall.Served (r : VirtioBlockDeviceRequest) : BlockCall → Prop
  | .readWrite completion length =>
    r.submitFn ≠ some .flush ∧ r.completion = .storage completion ∧ r.length = length
  | .flush => r.submitFn = some .flush ∧ r.sleeping = true

namespace VirtioBlockDevice

def ledger (d : VirtioBlockDevice) : BlockLedger where
  accepted := d.accepted.length
  pending := d.pendingRequests.map fun request => (d.requests request).serial
  inFlight := d.inFlight.map fun request => (d.requests request).serial
  woken := d.woken.map fun request => (d.requests request).serial
  storage := d.storageLog.map StorageEvent.serial
  flushes := d.flushLog.map FlushEvent.serial
  handed := d.handed
  returned := d.returned.map Prod.fst

/-- The request objects that are in use. -/
def used (d : VirtioBlockDevice) : List Nat := d.pendingRequests ++ d.inFlight ++ d.woken

def Serves (d : VirtioBlockDevice) (request : Nat) : Prop :=
  ∃ call, d.accepted[d.serial request]? = some call ∧ call.Served (d.requests request)

def Answers (d : VirtioBlockDevice) (request : Nat) : Prop :=
  d.accepted[d.serial request]? = some .flush ∧
  ∃ status, (d.serial request, status) ∈ d.returned ∧
    (d.requests request).completion = .sync (requestResult status false)

/-- The completion of the call is called with the result of the call's own status byte. -/
def Finishes (d : VirtioBlockDevice) (event : StorageEvent) : Prop :=
  ∃ completion length status,
    d.accepted[event.serial]? = some (.readWrite completion length) ∧
    (event.serial, status) ∈ d.returned ∧ event.completion = some completion ∧
    event.result = requestResult status false ∧
    event.actualBytes = if status = 0 then length else 0

def Flushes (d : VirtioBlockDevice) (event : FlushEvent) : Prop :=
  d.accepted[event.serial]? = some .flush ∧
  ∃ status, (event.serial, status) ∈ d.returned ∧
    event.result = some (requestResult status false)

/-- The objects that no list holds are the ones in `leaked`. -/
structure Core (n : Nat) (leaked : List Nat) (d : VirtioBlockDevice) : Prop where
  owned : (d.requestPool ++ d.used ++ leaked).Perm (List.range n)
  good : d.ledger.Good
  serves : ∀ request ∈ d.pendingRequests ++ d.inFlight, d.Serves request
  answers : ∀ request ∈ d.woken, d.Answers request
  finishes : ∀ event ∈ d.storageLog, d.Finishes event
  flushes : ∀ event ∈ d.flushLog, d.Flushes event

variable {d d' : VirtioBlockDevice}

theorem Core.nodup (core : Core n leaked d) : (d.requestPool ++ d.used ++ leaked).Nodup :=
  core.owned.nodup_iff.mpr List.nodup_range

theorem Core.pooled (core : Core n leaked d) (member : request ∈ d.requestPool) :
    request ∉ d.used := by
  intro other
  have distinct := (List.nodup_append.mp (List.nodup_append.mp core.nodup).1).2.2
  exact distinct request member request other rfl

structure Extends (d d' : VirtioBlockDevice) : Prop where
  accepted : d.accepted <+: d'.accepted
  returned : d.returned ⊆ d'.returned

theorem Extends.keepsCall {number : Nat} (later : Extends d d') (found : d.accepted[number]? = some call) :
    d'.accepted[number]? = some call := by
  obtain ⟨more,equal⟩ := later.accepted
  rw [← equal,List.getElem?_append_left (List.getElem?_eq_some_iff.mp found).1,found]

theorem Serves.mono (serves : Serves d request) (later : Extends d d')
    (same : d'.requests request = d.requests request) : Serves d' request := by
  obtain ⟨call,found,served⟩ := serves
  refine ⟨call,later.keepsCall ?_,same ▸ served⟩
  rw [serial,same]
  exact found

theorem Answers.mono (answers : Answers d request) (later : Extends d d')
    (same : d'.requests request = d.requests request) : Answers d' request := by
  obtain ⟨found,status,back,result⟩ := answers
  refine ⟨later.keepsCall ?_,status,later.returned ?_,same ▸ result⟩
  · rw [serial,same]
    exact found
  · rw [serial,same]
    exact back

theorem Finishes.mono (finishes : Finishes d event) (later : Extends d d') : Finishes d' event := by
  obtain ⟨completion,length,status,found,back,rest⟩ := finishes
  exact ⟨completion,length,status,later.keepsCall found,later.returned back,rest⟩

theorem Flushes.mono (flushes : Flushes d event) (later : Extends d d') : Flushes d' event := by
  obtain ⟨found,status,back,result⟩ := flushes
  exact ⟨later.keepsCall found,status,later.returned back,result⟩

/-- A step that answers no call keeps the answers that were given. -/
theorem Core.unanswered (core : Core n leaked d) (later : Extends d d')
    (objects : d'.requests = d.requests) (woken : d'.woken = d.woken)
    (storage : d'.storageLog = d.storageLog) (flushed : d'.flushLog = d.flushLog) :
    (∀ request ∈ d'.woken, d'.Answers request) ∧ (∀ event ∈ d'.storageLog, d'.Finishes event) ∧
      ∀ event ∈ d'.flushLog, d'.Flushes event := by
  rw [woken,storage,flushed]
  refine ⟨?_,?_,?_⟩
  · exact fun request member => (core.answers request member).mono later (congrFun objects request)
  · exact fun event member => (core.finishes event member).mono later
  · exact fun event member => (core.flushes event member).mono later

/-- Objects that are not in use may change. -/
theorem Core.reuse {objects : Nat → VirtioBlockDeviceRequest} (core : Core n leaked d)
    (same : ∀ request ∈ d.used, objects request = d.requests request) :
    Core n leaked { d with requests := objects } := by
  have later : Extends d { d with requests := objects } := ⟨List.prefix_refl _,fun _ => id⟩
  have ledger : VirtioBlockDevice.ledger { d with requests := objects } = d.ledger := by
    simp only [VirtioBlockDevice.ledger,BlockLedger.mk.injEq,and_self,and_true,true_and]
    refine ⟨List.map_congr_left ?_,List.map_congr_left ?_,List.map_congr_left ?_⟩
    all_goals
      intro request member
      exact congrArg _ (same request (by simp [used,member]))
  refine ⟨core.owned,ledger ▸ core.good,?_,?_,core.finishes,core.flushes⟩
  · intro request member
    exact (core.serves request member).mono later (same request (List.mem_append_left _ member))
  · intro request member
    exact (core.answers request member).mono later (same request (List.mem_append_right _ member))

def loaded (d : VirtioBlockDevice) (request : Nat) (r : VirtioBlockDeviceRequest) :
    VirtioBlockDevice :=
  { d with requests := Function.update d.requests request r }

theorem Core.loaded (core : Core n leaked d) (pool : d.requestPool = request :: rest)
    (r : VirtioBlockDeviceRequest) : Core n leaked (d.loaded request r) := by
  apply core.reuse
  intro other member
  have fresh := core.pooled (pool ▸ List.mem_cons_self)
  have different : other ≠ request := fun same => fresh (same ▸ member)
  exact Function.update_of_ne different r d.requests

/-- The object of a call that has just been accepted. -/
theorem serves_new (number : d.serial request = d.accepted.length)
    (served : call.Served (d.requests request)) (objects : d'.requests request = d.requests request)
    (accepted : d'.accepted = d.accepted ++ [call]) : Serves d' request := by
  refine ⟨call,?_,objects ▸ served⟩
  rw [serial,objects,accepted]
  rw [serial] at number
  simp [number]

theorem Core.handOver (core : Core n leaked d) (pool : d.requestPool = request :: rest)
    (none : d.pendingRequests = []) (number : d.serial request = d.accepted.length)
    (served : call.Served (d.requests request)) :
    Core n leaked { d.handOver request with
      requestPool := rest
      accepted := d.accepted ++ [call] } := by
  have later : Extends d { d.handOver request with
      requestPool := rest
      accepted := d.accepted ++ [call] } := ⟨List.prefix_append _ _,fun _ => id⟩
  obtain ⟨answers,finishes,flushes⟩ := core.unanswered later rfl rfl rfl rfl
  refine ⟨?_,?_,?_,answers,finishes,flushes⟩
  · refine List.Perm.trans ?_ core.owned
    rw [pool,List.perm_iff_count]
    intro i
    simp only [used,VirtioBlockDevice.handOver,List.count_append,List.count_cons,List.count_nil]
    omega
  · have good := core.good.handOver (by simp [ledger,none])
    simpa [ledger,VirtioBlockDevice.handOver,serial,show (d.requests request).serial = _ from number] using good
  · intro other member
    simp only [VirtioBlockDevice.handOver,none,List.nil_append] at member
    rcases List.mem_append.mp member with waiting | taken
    · exact (core.serves other (List.mem_append_right _ waiting)).mono later rfl
    · obtain rfl := List.mem_singleton.mp taken
      exact serves_new number served rfl rfl

theorem Core.defer (core : Core n leaked d) (pool : d.requestPool = request :: rest)
    (number : d.serial request = d.accepted.length) (served : call.Served (d.requests request))
    (refused : Bool) :
    Core n leaked { d with
      requestPool := rest
      pendingRequests := d.pendingRequests ++ [request]
      accepted := d.accepted ++ [call]
      refusedIdle := refused } := by
  have later : Extends d { d with
      requestPool := rest
      pendingRequests := d.pendingRequests ++ [request]
      accepted := d.accepted ++ [call]
      refusedIdle := refused } := ⟨List.prefix_append _ _,fun _ => id⟩
  obtain ⟨answers,finishes,flushes⟩ := core.unanswered later rfl rfl rfl rfl
  refine ⟨?_,?_,?_,answers,finishes,flushes⟩
  · refine List.Perm.trans ?_ core.owned
    rw [pool,List.perm_iff_count]
    intro i
    simp only [used,List.count_append,List.count_cons,List.count_nil]
    omega
  · have good := core.good.defer
    simpa [ledger,show (d.requests request).serial = _ from number] using good
  · intro other member
    rcases List.mem_append.mp member with waiting | flying
    · rcases List.mem_append.mp waiting with old | new
      · exact (core.serves other (List.mem_append_left _ old)).mono later rfl
      · obtain rfl := List.mem_singleton.mp new
        exact serves_new number served rfl rfl
    · exact (core.serves other (List.mem_append_right _ flying)).mono later rfl

theorem Core.retry (core : Core n leaked d) (first : d.pendingRequests = request :: rest) :
    Core n leaked { d.handOver request with pendingRequests := rest } := by
  have later : Extends d { d.handOver request with pendingRequests := rest } :=
    ⟨List.prefix_refl _,fun _ => id⟩
  obtain ⟨answers,finishes,flushes⟩ := core.unanswered later rfl rfl rfl rfl
  refine ⟨?_,?_,?_,answers,finishes,flushes⟩
  · refine List.Perm.trans ?_ core.owned
    rw [List.perm_iff_count]
    intro i
    simp only [used,first,VirtioBlockDevice.handOver,List.count_append,List.count_cons,
      List.count_nil]
    omega
  · have good := core.good.retry (by rw [ledger,first,List.map_cons])
    simpa [ledger,VirtioBlockDevice.handOver,serial] using good
  · intro other member
    have inside : other ∈ d.pendingRequests ++ d.inFlight := by
      simp only [VirtioBlockDevice.handOver,List.mem_append,List.mem_singleton] at member
      simp only [first,List.mem_append,List.mem_cons]
      tauto
    exact (core.serves other inside).mono later rfl

/-- The object of a call with a direction that is neither way is in no list any more. -/
theorem Core.leak (core : Core n leaked d) (pool : d.requestPool = request :: rest) :
    Core n (request :: leaked) { d with requestPool := rest } := by
  refine ⟨?_,core.good,core.serves,core.answers,core.finishes,core.flushes⟩
  refine List.Perm.trans ?_ core.owned
  rw [pool,List.perm_iff_count]
  intro i
  simp only [used,List.count_append,List.count_cons]
  omega

/-- What is not part of the bookkeeping of requests. -/
theorem Core.record (core : Core n leaked d) (drains : Nat) (retries : List (Nat × IOReturn))
    (refused : Bool) :
    Core n leaked { d with drainsDue := drains, retries := retries, refusedIdle := refused } :=
  ⟨core.owned,core.good,core.serves,core.answers,core.finishes,core.flushes⟩

/-- The loop over the pending requests, wherever it stops. -/
theorem Core.retryPending (core : Core n leaked { d with pendingRequests := pending })
    (submits : Nat → IOReturn) (k : Nat) : Core n leaked (d.retryPending submits k pending) := by
  induction pending generalizing d k with
  | nil => exact core
  | cons next rest ih =>
    rw [VirtioBlockDevice.retryPending]
    by_cases taken : submits k = .success
    · rw [if_neg (not_not.mpr taken)]
      apply ih
      exact (core.record d.drainsDue (d.retries ++ [(d.serial next,submits k)])
        d.refusedIdle).retry rfl
    · rw [if_pos taken]
      exact core.record d.drainsDue (d.retries ++ [(d.serial next,submits k)])
        (d.refusedIdle || d.idle)

theorem Core.flying (core : Core n leaked d) (member : request ∈ d.inFlight) :
    request ∉ d.pendingRequests ++ d.inFlight.erase request ++ d.woken := by
  have split := List.perm_cons_erase member
  have whole : (request :: (d.requestPool ++
      (d.pendingRequests ++ d.inFlight.erase request ++ d.woken) ++ leaked)).Perm (List.range n) := by
    refine List.Perm.trans ?_ core.owned
    rw [List.perm_iff_count] at split ⊢
    intro i
    have here := split i
    simp only [used,List.count_append,List.count_cons] at here ⊢
    omega
  have distinct := List.nodup_cons.mp (whole.nodup_iff.mpr List.nodup_range)
  intro other
  exact distinct.1 (List.mem_append_left _ (List.mem_append_right _ other))

/-- The transport gives a request back, and its object goes on to `woken` or to the pool. -/
theorem Core.others (core : Core n leaked d) (member : request ∈ d.inFlight)
    (r : VirtioBlockDeviceRequest) :
    ∀ other ∈ d.pendingRequests ++ d.inFlight.erase request ++ d.woken,
      Function.update d.requests request r other = d.requests other := by
  intro other inside
  have different : other ≠ request := fun same => core.flying member (same ▸ inside)
  exact Function.update_of_ne different r d.requests

/-- The serial numbers of the others, with the object of a request changed. -/
theorem Core.serials (core : Core n leaked d) (member : request ∈ d.inFlight)
    (r : VirtioBlockDeviceRequest) (list : List Nat)
    (inside : list ⊆ d.pendingRequests ++ d.inFlight.erase request ++ d.woken) :
    (list.map fun other => (Function.update d.requests request r other).serial) =
      list.map fun other => (d.requests other).serial :=
  List.map_congr_left fun other present => congrArg _ (core.others member r other (inside present))

/-- The requests that stay with the driver or the transport are served as before. -/
theorem Core.serves_others (core : Core n leaked d) (later : Extends d d')
    (objects : d'.requests = Function.update d.requests request r) (member : request ∈ d.inFlight)
    (inside : other ∈ d.pendingRequests ++ d.inFlight.erase request) : Serves d' other := by
  have present : other ∈ d.pendingRequests ++ d.inFlight := by
    rcases List.mem_append.mp inside with waiting | flying
    · exact List.mem_append_left _ waiting
    · exact List.mem_append_right _ (List.mem_of_mem_erase flying)
  apply (core.serves other present).mono later
  rw [objects]
  exact core.others member r other (List.mem_append_left _ inside)

theorem Core.complete (core : Core n leaked d) (member : request ∈ d.inFlight)
    (call : d.accepted[d.serial request]? = some (.readWrite completion length))
    (r : VirtioBlockDeviceRequest) (status : Nat) :
    Core n leaked { d with
      requests := Function.update d.requests request r
      requestPool := request :: d.requestPool
      inFlight := d.inFlight.erase request
      returned := d.returned ++ [(d.serial request,status)]
      storageLog := d.storageLog ++ [⟨d.serial request,some completion,requestResult status false,
        if requestResult status false = .success then length else 0⟩] } := by
  have split := List.perm_cons_erase member
  have same := core.others member r
  have later : Extends d { d with
      requests := Function.update d.requests request r
      requestPool := request :: d.requestPool
      inFlight := d.inFlight.erase request
      returned := d.returned ++ [(d.serial request,status)]
      storageLog := d.storageLog ++ [⟨d.serial request,some completion,requestResult status false,
        if requestResult status false = .success then length else 0⟩] } :=
    ⟨List.prefix_refl _,List.subset_append_left _ _⟩
  refine ⟨?_,?_,?_,?_,?_,?_⟩
  · refine List.Perm.trans ?_ core.owned
    rw [List.perm_iff_count] at split ⊢
    intro i
    have here := split i
    simp only [used,List.count_append,List.count_cons] at here ⊢
    omega
  · have good := core.good.finish (split.map fun other => (d.requests other).serial)
    have pending := core.serials member r d.pendingRequests (by simp)
    have flying := core.serials member r (d.inFlight.erase request) (by simp)
    have woken := core.serials member r d.woken (by simp)
    simpa [ledger,serial,pending,flying,woken] using good
  · exact fun other inside => core.serves_others later rfl member inside
  · intro other inside
    exact (core.answers other inside).mono later (same other (List.mem_append_right _ inside))
  · intro event logged
    rcases List.mem_append.mp logged with old | new
    · exact (core.finishes event old).mono later
    · rw [List.mem_singleton.mp new]
      refine ⟨completion,length,status,call,by simp,rfl,rfl,?_⟩
      simp only [requestResult_success_iff]
  · exact fun event logged => (core.flushes event logged).mono later

theorem Core.wake (core : Core n leaked d) (member : request ∈ d.inFlight)
    (call : d.accepted[d.serial request]? = some .flush) (number : r.serial = d.serial request)
    (result : r.completion = .sync (requestResult status false)) :
    Core n leaked { d with
      requests := Function.update d.requests request r
      inFlight := d.inFlight.erase request
      returned := d.returned ++ [(d.serial request,status)]
      woken := d.woken ++ [request] } := by
  have split := List.perm_cons_erase member
  have same := core.others member r
  have later : Extends d { d with
      requests := Function.update d.requests request r
      inFlight := d.inFlight.erase request
      returned := d.returned ++ [(d.serial request,status)]
      woken := d.woken ++ [request] } :=
    ⟨List.prefix_refl _,List.subset_append_left _ _⟩
  refine ⟨?_,?_,?_,?_,?_,?_⟩
  · refine List.Perm.trans ?_ core.owned
    rw [List.perm_iff_count] at split ⊢
    intro i
    have here := split i
    simp only [used,List.count_append,List.count_cons,List.count_nil] at here ⊢
    omega
  · have good := core.good.wake (split.map fun other => (d.requests other).serial)
    have pending := core.serials member r d.pendingRequests (by simp)
    have flying := core.serials member r (d.inFlight.erase request) (by simp)
    have woken := core.serials member r d.woken (by simp)
    simpa [ledger,serial,pending,flying,woken,show r.serial = (d.requests request).serial from number]
      using good
  · exact fun other inside => core.serves_others later rfl member inside
  · intro other inside
    rcases List.mem_append.mp inside with old | new
    · exact (core.answers other old).mono later (same other (List.mem_append_right _ old))
    · obtain rfl := List.mem_singleton.mp new
      have here : serial { d with requests := Function.update d.requests other r } other =
          d.serial other := by
        simpa [serial] using number
      refine ⟨?_,status,?_,?_⟩
      · exact here.symm ▸ call
      · exact here.symm ▸ List.mem_append_right _ List.mem_cons_self
      · simpa using result
  · exact fun event logged => (core.finishes event logged).mono later
  · exact fun event logged => (core.flushes event logged).mono later

theorem Core.resume (core : Core n leaked d) (member : request ∈ d.woken) :
    Core n leaked (d.resumeSynchronizeCache request) := by
  have split := List.perm_cons_erase member
  have later : Extends d (d.resumeSynchronizeCache request) := ⟨List.prefix_refl _,fun _ => id⟩
  refine ⟨?_,?_,?_,?_,?_,?_⟩
  · refine List.Perm.trans ?_ core.owned
    rw [List.perm_iff_count] at split ⊢
    intro i
    have here := split i
    simp only [used,resumeSynchronizeCache,returnRequestToPool,List.count_append,List.count_cons]
      at here ⊢
    omega
  · have good := core.good.resume (split.map fun other => (d.requests other).serial)
    simpa [ledger,resumeSynchronizeCache,returnRequestToPool,serial] using good
  · exact fun other inside => (core.serves other inside).mono later rfl
  · intro other inside
    exact (core.answers other (List.mem_of_mem_erase inside)).mono later rfl
  · exact fun event logged => (core.finishes event logged).mono later
  · intro event logged
    rcases List.mem_append.mp logged with old | new
    · exact (core.flushes event old).mono later
    · rw [List.mem_singleton.mp new]
      obtain ⟨found,status,back,result⟩ := core.answers request member
      exact ⟨found,status,back,by rw [result]; rfl⟩

def Hard (result : IOReturn) : Prop := result ≠ .success ∧ result ≠ .noSpace ∧ result ≠ .busy

instance (result : IOReturn) : Decidable (Hard result) := inferInstanceAs (Decidable (_ ∧ _))

/-- What a call does to the device: nothing, or the object `request` of the pool is used. It is
lost only if `leaks` holds. -/
inductive CallOutcome (d : VirtioBlockDevice) (submit : IOReturn) (leaks : Prop) :
    Option IOReturn → VirtioBlockDevice → Prop where
  | refused : result ≠ some .success → CallOutcome d submit leaks result d
  | leaked (r : VirtioBlockDeviceRequest) : leaks → d.requestPool = request :: rest →
      CallOutcome d submit leaks (some .badArgument) { d.loaded request r with requestPool := rest }
  | handed (r : VirtioBlockDeviceRequest) : d.requestPool = request :: rest →
      d.pendingRequests = [] → submit = .success → r.serial = d.accepted.length →
      call.Served r → result = none ∨ result = some .success →
      CallOutcome d submit leaks result { (d.loaded request r).handOver request with
        requestPool := rest
        accepted := d.accepted ++ [call] }
  | deferred (r : VirtioBlockDeviceRequest) : d.requestPool = request :: rest →
      (d.pendingRequests = [] → submit = .noSpace ∨ submit = .busy) →
      r.serial = d.accepted.length → call.Served r → result = none ∨ result = some .success →
      CallOutcome d submit leaks result { d.loaded request r with
        requestPool := rest
        pendingRequests := d.pendingRequests ++ [request]
        accepted := d.accepted ++ [call]
        refusedIdle := d.refusedIdle || (d.pendingRequests.isEmpty && d.idle) }
  | failed (r : VirtioBlockDeviceRequest) : d.requestPool = request :: rest →
      d.pendingRequests = [] → Hard submit →
      CallOutcome d submit leaks (some submit) (d.loaded request r)

theorem submitOrDefer_cases (submit : IOReturn) (request : Nat) (call : BlockCall)
    (d : VirtioBlockDevice) :
    (d.pendingRequests = [] ∧ submit = .success ∧ d.submitOrDefer submit request call = (.success,
      { (d.loaded request { d.requests request with serial := d.accepted.length }).handOver request
          with accepted := d.accepted ++ [call] })) ∨
    ((d.pendingRequests = [] → submit = .noSpace ∨ submit = .busy) ∧
      d.submitOrDefer submit request call = (.success,
        { d.loaded request { d.requests request with serial := d.accepted.length } with
          pendingRequests := d.pendingRequests ++ [request]
          accepted := d.accepted ++ [call]
          refusedIdle := d.refusedIdle || (d.pendingRequests.isEmpty && d.idle) })) ∨
    (d.pendingRequests = [] ∧ Hard submit ∧ d.submitOrDefer submit request call = (submit,
      d.loaded request { d.requests request with serial := d.accepted.length })) := by
  rw [submitOrDefer]
  by_cases none : d.pendingRequests = []
  · simp only [if_pos none]
    by_cases soft : submit = .noSpace ∨ submit = .busy
    · exact .inr (.inl ⟨fun _ => soft,if_pos soft⟩)
    · rw [if_neg soft]
      by_cases taken : submit = .success
      · exact .inl ⟨none,taken,if_pos taken⟩
      · exact .inr (.inr ⟨none,⟨taken,not_or.mp soft⟩,if_neg taken⟩)
  · simp only [if_neg none,true_or,if_true]
    exact .inr (.inl ⟨fun empty => absurd empty none,rfl⟩)

theorem Served.numbered {call : BlockCall} (served : call.Served r) (number : Nat) :
    call.Served { r with serial := number } := by
  cases call <;> exact served

theorem finishReadWrite_outcome (leaks : Prop) (submit : IOReturn)
    (pool : d.requestPool = request :: rest)
    (served : (BlockCall.readWrite completion length).Served r) :
    CallOutcome d submit leaks
      (finishReadWrite submit request (.readWrite completion length)
        { d.loaded request r with requestPool := rest }).result
      (finishReadWrite submit request (.readWrite completion length)
        { d.loaded request r with requestPool := rest }).device := by
  have numbered := Served.numbered served d.accepted.length
  rcases submitOrDefer_cases submit request (.readWrite completion length)
      { d.loaded request r with requestPool := rest } with
    ⟨none,taken,equal⟩ | ⟨soft,equal⟩ | ⟨none,hard,equal⟩
  · have outcome : CallOutcome d submit leaks (some .success) _ :=
      .handed { r with serial := d.accepted.length } pool none taken rfl numbered (.inr rfl)
    simp only [finishReadWrite,equal]
    simpa [loaded,handOver,serial] using outcome
  · have outcome : CallOutcome d submit leaks (some .success) _ :=
      .deferred { r with serial := d.accepted.length } pool soft rfl numbered (.inr rfl)
    simp only [finishReadWrite,equal]
    simpa [loaded,idle] using outcome
  · have outcome : CallOutcome d submit leaks (some submit) _ :=
      .failed { r with serial := d.accepted.length, subranges := [] } pool none hard
    simp only [finishReadWrite,equal]
    simpa [loaded,modifyRequest,returnRequestToPool,hard.1,← pool] using outcome

def Leaks (args : ReadWriteArgs) (d : VirtioBlockDevice) : Prop :=
  args.nblks * d.blockSize % 2^64 ≤ args.buffer.length ∧
  (args.block + args.nblks) % 2^64 * d.blockSize % 2^64 ≤ d.capacityInBytes ∧
  d.requestPool ≠ [] ∧ args.direction ≠ .input ∧ args.direction ≠ .output

theorem doAsyncReadWrite_outcome (args : ReadWriteArgs) (submit : IOReturn) (d : VirtioBlockDevice) :
    CallOutcome d submit (d.Leaks args) (d.doAsyncReadWriteOnWorkLoop args submit).result
      (d.doAsyncReadWriteOnWorkLoop args submit).device := by
  rw [doAsyncReadWriteOnWorkLoop]
  by_cases small : args.buffer.length < args.nblks * d.blockSize % 2^64
  · rw [if_pos small]
    exact .refused (by simp)
  rw [if_neg small]
  by_cases beyond : (args.block + args.nblks) % 2^64 * d.blockSize % 2^64 > d.capacityInBytes
  · rw [if_pos beyond]
    exact .refused (by simp)
  rw [if_neg beyond]
  cases pool : d.requestPool with
  | nil => exact .refused (by simp)
  | cons request rest =>
    cases way : args.direction with
    | input =>
      exact finishReadWrite_outcome (d.Leaks args) submit pool ⟨by simp [prepareReadWrite],rfl,rfl⟩
    | output =>
      exact finishReadWrite_outcome (d.Leaks args) submit pool ⟨by simp [prepareReadWrite],rfl,rfl⟩
    | none =>
      exact .leaked _ ⟨Nat.not_lt.mp small,Nat.not_lt.mp beyond,by simp [pool],by simp [way]⟩ pool
    | inOut =>
      exact .leaked _ ⟨Nat.not_lt.mp small,Nat.not_lt.mp beyond,by simp [pool],by simp [way]⟩ pool

theorem doSynchronizeCache_outcome (submit : IOReturn) (d : VirtioBlockDevice) :
    CallOutcome d submit False (d.doSynchronizeCacheOnWorkLoop submit).result
      (d.doSynchronizeCacheOnWorkLoop submit).device := by
  rw [doSynchronizeCacheOnWorkLoop]
  cases pool : d.requestPool with
  | nil => exact .refused (by simp)
  | cons request rest =>
    simp only
    have flushes : BlockCall.flush.Served { d.requests request with
        header := ⟨.flush,0,0⟩
        submitFn := some .flush
        serial := d.accepted.length
        sleeping := true } := ⟨rfl,rfl⟩
    rcases submitOrDefer_cases submit request .flush
        ({ d with requestPool := rest }.modifyRequest request fun r =>
          { r with header := ⟨.flush,0,0⟩, submitFn := some .flush }) with
      ⟨empty,taken,equal⟩ | ⟨soft,equal⟩ | ⟨empty,hard,equal⟩
    · have outcome : CallOutcome d submit False none _ := .handed
        { d.requests request with
          header := ⟨.flush,0,0⟩
          submitFn := some .flush
          serial := d.accepted.length
          sleeping := true } pool empty taken rfl flushes (.inl rfl)
      simp only [equal]
      simpa [loaded,modifyRequest,handOver,serial] using outcome
    · have outcome : CallOutcome d submit False none _ := .deferred
        { d.requests request with
          header := ⟨.flush,0,0⟩
          submitFn := some .flush
          serial := d.accepted.length
          sleeping := true } pool soft rfl flushes (.inl rfl)
      simp only [equal]
      simpa [loaded,idle,modifyRequest] using outcome
    · have outcome : CallOutcome d submit False (some submit) _ := .failed
        { d.requests request with
          header := ⟨.flush,0,0⟩
          submitFn := some .flush
          serial := d.accepted.length } pool empty hard
      simp only [equal]
      simpa [loaded,modifyRequest,returnRequestToPool,hard.1,← pool] using outcome

/-- The loop over the pending requests changes no object and wakes no one, and it depends only
on the serial numbers of the pending requests. -/
theorem retryPending_frame (submits : Nat → IOReturn) (k : Nat) (pending : List Nat)
    (d : VirtioBlockDevice) (objects : Nat → VirtioBlockDeviceRequest)
    (same : ∀ next ∈ pending, (objects next).serial = (d.requests next).serial) (woken : List Nat) :
    retryPending submits k pending { d with requests := objects, woken := woken } =
      { retryPending submits k pending d with requests := objects, woken := woken } := by
  induction pending generalizing d k with
  | nil => rfl
  | cons next rest ih =>
    have here : (objects next).serial = (d.requests next).serial := same next List.mem_cons_self
    rw [retryPending,retryPending]
    by_cases taken : submits k = .success
    · simp only [if_neg (not_not.mpr taken),handOver,serial,here]
      exact ih (k + 1) { d with
        retries := d.retries ++ [((d.requests next).serial,submits k)]
        inFlight := d.inFlight ++ [next]
        handed := d.handed ++ [(d.requests next).serial] }
        fun other member => same other (List.mem_cons_of_mem _ member)
    · simp only [if_pos taken,serial,here,idle]

theorem retryPending_requests (submits : Nat → IOReturn) (k : Nat) (pending : List Nat)
    (d : VirtioBlockDevice) :
    (retryPending submits k pending d).requests = d.requests ∧
      (retryPending submits k pending d).woken = d.woken := by
  have equal := retryPending_frame submits k pending d d.requests (fun _ _ => rfl) d.woken
  have objects := congrArg VirtioBlockDevice.requests equal
  have woken := congrArg VirtioBlockDevice.woken equal
  exact ⟨objects,woken⟩

/-- A flush is answered, and its caller woken, as if that came before the retries. -/
theorem flushRequestCompleted_eq (asleep : (d.requests request).sleeping = true)
    (apart : request ∉ d.pendingRequests) (status : Nat) (submits : Nat → IOReturn) :
    (d.giveBack request status).flushRequestCompleted request false submits =
      retryPending submits 0 d.pendingRequests { d with
        requests := Function.update d.requests request { d.requests request with
          status := status
          completion := .sync (requestResult status false)
          sleeping := false }
        inFlight := d.inFlight.erase request
        returned := d.returned ++ [(d.serial request,status)]
        woken := d.woken ++ [request] } := by
  obtain ⟨answered,filled⟩ : ∃ answered, answered = { d with
      requests := Function.update d.requests request { d.requests request with
        status := status
        completion := .sync (requestResult status false) }
      inFlight := d.inFlight.erase request
      returned := d.returned ++ [(d.serial request,status)] } := ⟨_,rfl⟩
  have whole : (d.giveBack request status).flushRequestCompleted request false submits =
      (retryPending submits 0 d.pendingRequests answered).wakeup request := by
    simp [flushRequestCompleted,handlePendingRequests,giveBack,modifyRequest,serial,filled]
  obtain ⟨objects,woken⟩ := retryPending_requests submits 0 d.pendingRequests answered
  have frame := retryPending_frame submits 0 d.pendingRequests answered
    (Function.update d.requests request { d.requests request with
      status := status
      completion := .sync (requestResult status false)
      sleeping := false }) (by
        intro next member
        have different : next ≠ request := fun same => apart (same ▸ member)
        simp [filled,Function.update_of_ne different]) (d.woken ++ [request])
  have waits : ((retryPending submits 0 d.pendingRequests answered).requests request).sleeping =
      true := by
    rw [objects]
    simpa [filled] using asleep
  rw [whole,wakeup,if_pos waits]
  simp only [modifyRequest,objects,woken]
  subst filled
  simp only [Function.update_self,Function.update_idem]
  exact frame.symm

theorem Core.called (core : Core n leaked d) (outcome : CallOutcome d submit leaks result d') :
    ∃ more, Core n (more ++ leaked) d' ∧ (¬leaks → more = []) := by
  cases outcome with
  | refused => exact ⟨[],core,fun _ => rfl⟩
  | leaked r lost pool =>
    exact ⟨[_],(core.loaded pool r).leak pool,fun kept => absurd lost kept⟩
  | handed r pool none _ number served =>
    have loaded := core.loaded pool r
    refine ⟨[],loaded.handOver pool none ?_ ?_,fun _ => rfl⟩
    · simpa [VirtioBlockDevice.loaded,serial] using number
    · simpa [VirtioBlockDevice.loaded] using served
  | deferred r pool _ number served =>
    have loaded := core.loaded pool r
    refine ⟨[],loaded.defer pool ?_ ?_ _,fun _ => rfl⟩
    · simpa [VirtioBlockDevice.loaded,serial] using number
    · simpa [VirtioBlockDevice.loaded] using served
  | failed r pool => exact ⟨[],core.loaded pool r,fun _ => rfl⟩

theorem transportCompletes_cases (taken : d.transportCompletes request status submits = some d') :
    request ∈ d.inFlight ∧
      (((d.requests request).submitFn ≠ some .flush ∧
        d' = { (d.giveBack request (status % 256)).callStorageCompletion request false with
          drainsDue := d.drainsDue + 1 }) ∨
      ((d.requests request).submitFn = some .flush ∧
        d' = (d.giveBack request (status % 256)).flushRequestCompleted request false submits)) := by
  have same : ((d.giveBack request (status % 256)).requests request).submitFn =
      (d.requests request).submitFn := by
    simp [giveBack,modifyRequest]
  rw [transportCompletes] at taken
  by_cases member : request ∈ d.inFlight
  · rw [if_pos member] at taken
    refine ⟨member,?_⟩
    by_cases kind : (d.requests request).submitFn = some .flush
    · simp only [same,if_pos kind,Option.some.injEq] at taken
      exact .inr ⟨kind,taken.symm⟩
    · simp only [same,if_neg kind,Option.some.injEq] at taken
      exact .inl ⟨kind,taken.symm⟩
  · rw [if_neg member] at taken
    cases taken

theorem Core.completed (core : Core n leaked d)
    (taken : d.transportCompletes request status submits = some d') : Core n leaked d' := by
  obtain ⟨member,⟨kind,rfl⟩ | ⟨kind,rfl⟩⟩ := transportCompletes_cases taken
  · obtain ⟨call,found,served⟩ := core.serves request (List.mem_append_right _ member)
    cases call with
    | flush => exact absurd served.1 kind
    | readWrite completion length =>
      obtain ⟨_,stored,bytes⟩ := served
      have complete := (core.complete member found { d.requests request with
        status := status % 256
        subranges := [] } (status % 256)).record (d.drainsDue + 1) d.retries d.refusedIdle
      simpa [giveBack,modifyRequest,callStorageCompletion,returnRequestToPool,completeStorage,
        serial,stored,bytes,BlockCompletion.storageCompletion] using complete
  · obtain ⟨call,found,served⟩ := core.serves request (List.mem_append_right _ member)
    cases call with
    | readWrite completion length => exact absurd kind served.1
    | flush =>
      have apart : request ∉ d.pendingRequests := fun waiting =>
        core.flying member (by simp [waiting])
      rw [flushRequestCompleted_eq served.2 apart]
      apply Core.retryPending
      exact core.wake member found rfl rfl

theorem drain_cases (taken : d.drain submits = some d') :
    d' = retryPending submits 0 d.pendingRequests { d with drainsDue := d.drainsDue - 1 } := by
  rw [drain] at taken
  by_cases due : 0 < d.drainsDue
  · rw [if_pos due] at taken
    exact (Option.some.inj taken).symm
  · rw [if_neg due] at taken
    cases taken

theorem resume_cases (taken : resume request d = some d') :
    request ∈ d.woken ∧ d' = d.resumeSynchronizeCache request := by
  rw [resume] at taken
  by_cases member : request ∈ d.woken
  · rw [if_pos member] at taken
    exact ⟨member,(Option.some.inj taken).symm⟩
  · rw [if_neg member] at taken
    cases taken

end VirtioBlockDevice

def BlockAction.Leaks (d : VirtioBlockDevice) : BlockAction → Prop
  | .readWrite args _ => d.Leaks args
  | _ => False

namespace VirtioBlockDevice

variable {d d' : VirtioBlockDevice}

theorem Core.keeps (core : Core n leaked d) (taken : blockStep a d = some d') :
    ∃ more, Core n (more ++ leaked) d' ∧ (¬a.Leaks d → more = []) := by
  cases a with
  | readWrite args submit =>
    cases taken
    exact core.called (doAsyncReadWrite_outcome args submit d)
  | synchronizeCache submit =>
    cases taken
    exact core.called (doSynchronizeCache_outcome submit d)
  | complete request status submits => exact ⟨[],core.completed taken,fun _ => rfl⟩
  | drain submits =>
    rw [drain_cases taken]
    exact ⟨[],(core.record (d.drainsDue - 1) d.retries d.refusedIdle).retryPending submits 0,
      fun _ => rfl⟩
  | resume request =>
    obtain ⟨member,rfl⟩ := resume_cases taken
    exact ⟨[],core.resume member,fun _ => rfl⟩

theorem pool_foldl (requests : List Nat) (d : VirtioBlockDevice) :
    requests.foldl returnRequestToPool d = { d with
      requestPool := requests.reverse ++ d.requestPool } := by
  induction requests generalizing d with
  | nil => rfl
  | cons request rest ih =>
    rw [List.foldl_cons,ih]
    simp [returnRequestToPool]

theorem core_started (queueSize blockSize capacity : Nat) :
    Core (queueSize + 32) [] (started queueSize blockSize capacity) := by
  rw [started,pool_foldl]
  refine ⟨?_,⟨rfl,List.Perm.refl _,List.Perm.refl _⟩,by simp,by simp,by simp,by simp⟩
  simp [used]

/-- Some object may be lost, but none is in two places. -/
theorem core_run {queueSize blockSize capacity : Nat}
    (run : Run blockStep allowed (started queueSize blockSize capacity) actions d) :
    ∃ leaked, Core (queueSize + 32) leaked d := by
  apply Run.keeps (fun d => ∃ leaked, Core (queueSize + 32) leaked d) _ run
  · exact ⟨[],core_started queueSize blockSize capacity⟩
  · rintro before a after _ taken ⟨leaked,core⟩
    obtain ⟨more,kept,_⟩ := core.keeps taken
    exact ⟨_,kept⟩

theorem core_run_kept {queueSize blockSize capacity : Nat}
    (run : Run blockStep (fun d a => ¬a.Leaks d) (started queueSize blockSize capacity) actions d) :
    Core (queueSize + 32) [] d := by
  apply Run.keeps (Core (queueSize + 32) []) _ run
  · exact core_started queueSize blockSize capacity
  · intro before a after kept taken core
    obtain ⟨more,core,none⟩ := core.keeps taken
    rw [none kept] at core
    exact core

theorem idle_eq_false_iff : d.idle = false ↔ d.inFlight ≠ [] ∨ 0 < d.drainsDue := by
  simp only [idle,Bool.and_eq_false_iff,List.isEmpty_eq_false_iff,beq_eq_false_iff_ne,
    Nat.pos_iff_ne_zero]

/-- Whoever is to retry the pending requests, unless the transport has refused one although
there was nobody. -/
def Moving (d : VirtioBlockDevice) : Prop :=
  d.pendingRequests ≠ [] → d.inFlight ≠ [] ∨ 0 < d.drainsDue ∨ d.refusedIdle = true

theorem retryPending_moving (submits : Nat → IOReturn) (k : Nat) (pending : List Nat)
    (d : VirtioBlockDevice) : Moving (retryPending submits k pending d) := by
  induction pending generalizing d k with
  | nil => exact fun waiting => absurd rfl waiting
  | cons next rest ih =>
    rw [retryPending]
    by_cases taken : submits k = .success
    · rw [if_neg (not_not.mpr taken)]
      exact ih _ _
    · rw [if_pos taken]
      intro _
      cases quiet : d.idle with
      | true => exact .inr (.inr (Bool.or_eq_true_iff.mpr (.inr quiet)))
      | false => exact (idle_eq_false_iff.mp quiet).imp id .inl

theorem Moving.wakeup (moving : Moving d) (request : Nat) : Moving (d.wakeup request) := by
  rw [VirtioBlockDevice.wakeup]
  split
  · exact moving
  · exact moving

theorem CallOutcome.moving (outcome : CallOutcome d submit leaks result d') (moving : Moving d) :
    Moving d' := by
  cases outcome with
  | refused => exact moving
  | leaked => exact moving
  | failed => exact moving
  | handed => exact fun _ => .inl (by simp [handOver])
  | deferred =>
    intro _
    cases quiet : d.idle with
    | true =>
      by_cases none : d.pendingRequests = []
      · exact .inr (.inr (by simp [none]))
      · exact (moving none).imp id (.imp id fun refused => by simp [refused])
    | false => exact (idle_eq_false_iff.mp quiet).imp id .inl

theorem Moving.keeps (moving : Moving d) (taken : blockStep a d = some d') : Moving d' := by
  cases a with
  | readWrite args submit =>
    cases taken
    exact (doAsyncReadWrite_outcome args submit d).moving moving
  | synchronizeCache submit =>
    cases taken
    exact (doSynchronizeCache_outcome submit d).moving moving
  | complete request status submits =>
    obtain ⟨_,⟨_,rfl⟩ | ⟨_,rfl⟩⟩ := transportCompletes_cases taken
    · exact fun _ => .inr (.inl (Nat.succ_pos _))
    · exact (retryPending_moving submits 0 _ _).wakeup request
  | drain submits =>
    rw [drain_cases taken]
    exact retryPending_moving submits 0 d.pendingRequests _
  | resume request =>
    obtain ⟨_,rfl⟩ := resume_cases taken
    exact moving

end VirtioBlockDevice

end VirtioOsx
