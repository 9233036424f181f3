import Mathlib.Data.Fintype.EquivFin
import VirtioOsx.BlockRuns
import VirtioOsx.Lib.Pool

/-! Callers that wait for a request object of the block device. `commandSleep` releases the
command gate, so that other callers take and return requests meanwhile; a wakeup makes one
sleeper runnable, and it goes on with its loop when it has the gate again. -/
namespace VirtioOsx

open Runs

structure PoolWaiter where
  caller : Nat
  request : Option Nat
  deriving DecidableEq, Repr

/-- `inUse` are the requests that have been obtained and not yet returned, each with the caller
that obtained it. -/
structure PoolWaiting where
  requestPool : List Nat
  inUse : List (Nat × Nat)
  sleeping : List PoolWaiter
  woken : List PoolWaiter
  deriving DecidableEq, Repr

inductive PoolAction where
  | requestFromPool (caller : Nat)
  | returnRequestToPool (request choice : Nat)
  | resume (waiter : PoolWaiter)
  deriving DecidableEq, Repr

namespace PoolWaiting

def waiting (s : PoolWaiting) : List PoolWaiter := s.sleeping ++ s.woken

/-- The loop of `requestFromPool`, up to its next `commandSleep` or to the return. It looks at
the local variable only. -/
def waitLoop (waiter : PoolWaiter) (s : PoolWaiting) : PoolWaiting :=
  match waiter.request with
  | none => { s with sleeping := s.sleeping ++ [waiter] }
  | some request => { s with inUse := (request, waiter.caller) :: s.inUse }

/-- The object is removed before the loop is entered. -/
def requestFromPool (caller : Nat) (s : PoolWaiting) : PoolWaiting :=
  { s with requestPool := s.requestPool.tail }.waitLoop ⟨caller, s.requestPool.head?⟩

/-- One of the threads that sleep on the pool is woken; which one is up to `choice`. -/
def commandWakeup (choice : Nat) (s : PoolWaiting) : PoolWaiting :=
  match Pool.draw choice s.sleeping with
  | none => s
  | some (waiter, rest) => { s with sleeping := rest, woken := s.woken ++ [waiter] }

def returnRequestToPool (request choice : Nat) (s : PoolWaiting) : PoolWaiting :=
  { s with
    requestPool := request :: s.requestPool
    inUse := s.inUse.filter fun held => held.1 != request }.commandWakeup choice

def resume (waiter : PoolWaiter) (s : PoolWaiting) : PoolWaiting :=
  { s with woken := s.woken.erase waiter }.waitLoop waiter

def started (queueSize : Nat) : PoolWaiting :=
  (List.range (queueSize + 32)).foldl (fun s request => s.returnRequestToPool request 0)
    ⟨[], [], [], []⟩

end PoolWaiting

/-- A thread that waits makes no other call, and only requests in use are returned. -/
def poolStep (a : PoolAction) (s : PoolWaiting) : Option PoolWaiting :=
  match a with
  | .requestFromPool caller =>
    if caller ∈ s.waiting.map PoolWaiter.caller then none else some (s.requestFromPool caller)
  | .returnRequestToPool request choice =>
    if request ∈ s.inUse.map Prod.fst then some (s.returnRequestToPool request choice) else none
  | .resume waiter => if waiter ∈ s.woken then some (s.resume waiter) else none

namespace PoolWaiting

variable {s s' : PoolWaiting}

theorem commandWakeup_cases (choice : Nat) (s : PoolWaiting) :
    s.sleeping = [] ∧ s.commandWakeup choice = s ∨
      ∃ waiter ∈ s.sleeping, s.commandWakeup choice = { s with
        sleeping := s.sleeping.erase waiter
        woken := s.woken ++ [waiter] } := by
  unfold commandWakeup
  cases drawn : Pool.draw choice s.sleeping with
  | none => exact .inl ⟨Pool.draw_eq_none_iff.mp drawn,rfl⟩
  | some picked =>
    obtain ⟨waiter,rest⟩ := picked
    obtain ⟨member,rfl⟩ := Pool.draw_cases drawn
    exact .inr ⟨waiter,member,rfl⟩

theorem commandWakeup_frame (choice : Nat) (s : PoolWaiting) :
    (s.commandWakeup choice).requestPool = s.requestPool ∧
      (s.commandWakeup choice).inUse = s.inUse ∧
      (s.commandWakeup choice).sleeping ⊆ s.sleeping ∧
      (s.commandWakeup choice).waiting.Perm s.waiting := by
  rcases commandWakeup_cases choice s with ⟨_,same⟩ | ⟨waiter,member,woke⟩
  · rw [same]
    exact ⟨rfl,rfl,List.Subset.refl _,.refl _⟩
  · rw [woke]
    have moved : (s.woken ++ [waiter] ++ s.sleeping.erase waiter).Perm (s.woken ++ s.sleeping) :=
      Pool.moved_perm member
    exact ⟨rfl,rfl,List.erase_subset,
      List.perm_append_comm.trans (moved.trans List.perm_append_comm)⟩

theorem poolStep_cases (taken : poolStep a s = some s') :
    (∃ caller, a = .requestFromPool caller ∧ s.requestPool = [] ∧
      s' = { s with sleeping := s.sleeping ++ [⟨caller,none⟩] }) ∨
    (∃ caller request rest, a = .requestFromPool caller ∧ s.requestPool = request :: rest ∧
      s' = { s with requestPool := rest, inUse := (request,caller) :: s.inUse }) ∨
    (∃ request choice, a = .returnRequestToPool request choice ∧
      request ∈ s.inUse.map Prod.fst ∧ s' = s.returnRequestToPool request choice) ∨
    (∃ waiter, a = .resume waiter ∧ waiter ∈ s.woken ∧ s' = s.resume waiter) := by
  cases a with
  | requestFromPool caller =>
    rw [poolStep] at taken
    split at taken
    · cases taken
    · obtain rfl := Option.some.inj taken
      cases pool : s.requestPool with
      | nil => exact .inl ⟨caller,rfl,rfl,by simp [requestFromPool,waitLoop,pool]⟩
      | cons request rest =>
        exact .inr (.inl ⟨caller,request,rest,rfl,rfl,by simp [requestFromPool,waitLoop,pool]⟩)
  | returnRequestToPool request choice =>
    rw [poolStep] at taken
    split at taken
    · rename_i used
      exact .inr (.inr (.inl ⟨request,choice,rfl,used,(Option.some.inj taken).symm⟩))
    · cases taken
  | resume waiter =>
    rw [poolStep] at taken
    split at taken
    · rename_i woken
      exact .inr (.inr (.inr ⟨waiter,rfl,woken,(Option.some.inj taken).symm⟩))
    · cases taken

/-- Each of the `n` requests is in the pool or in use, once, and the local variable of a caller
that waits is still null. -/
structure Sound (n : Nat) (s : PoolWaiting) : Prop where
  pooled : Pool.Pooled (List.range n) s.requestPool (s.inUse.map Prod.fst)
  blank : ∀ waiter ∈ s.waiting, waiter.request = none

theorem foldl_returnRequestToPool (requests pool : List Nat) :
    requests.foldl (fun s request => returnRequestToPool request 0 s) (mk pool [] [] []) =
      mk (requests.reverse ++ pool) [] [] [] := by
  induction requests generalizing pool with
  | nil => rfl
  | cons request rest ih =>
    rw [List.foldl_cons,List.reverse_cons,List.append_assoc]
    exact ih (request :: pool)

theorem started_eq (queueSize : Nat) :
    started queueSize = ⟨(List.range (queueSize + 32)).reverse,[],[],[]⟩ := by
  rw [started,foldl_returnRequestToPool,List.append_nil]

theorem sound_started (queueSize : Nat) : Sound (queueSize + 32) (started queueSize) := by
  rw [started_eq]
  refine ⟨(Pool.Pooled.full List.nodup_range).congr (List.reverse_perm _) (.refl _),?_⟩
  simp [waiting]

/-- Whatever the pool holds by then, a caller whose local variable is null sleeps again. -/
theorem resume_eq (blank : waiter.request = none) (s : PoolWaiting) :
    s.resume waiter = { s with
      sleeping := s.sleeping ++ [waiter]
      woken := s.woken.erase waiter } := by
  rw [resume,waitLoop,blank]

theorem resume_waiting (member : waiter ∈ s.woken) (blank : waiter.request = none) :
    (s.resume waiter).waiting.Perm s.waiting := by
  rw [resume_eq blank]
  exact Pool.moved_perm member

theorem Sound.held_split (sound : Sound n s) (used : request ∈ s.inUse.map Prod.fst) :
    (s.inUse.map Prod.fst).Perm
      (request :: (s.inUse.filter fun held => held.1 != request).map Prod.fst) := by
  have erased : (s.inUse.filter fun held => held.1 != request).map Prod.fst =
      (s.inUse.map Prod.fst).erase request := by
    rw [sound.pooled.held_nodup.erase_eq_filter,List.filter_map]
    rfl
  rw [erased]
  exact List.perm_cons_erase used

theorem requestFromPool_requestPool (caller : Nat) (s : PoolWaiting) :
    (s.requestFromPool caller).requestPool = s.requestPool.tail := by
  unfold requestFromPool waitLoop
  split
  · rfl
  · rfl

theorem returnRequestToPool_requestPool (request choice : Nat) (s : PoolWaiting) :
    (s.returnRequestToPool request choice).requestPool = request :: s.requestPool :=
  (commandWakeup_frame choice _).1

/-- Those who waited before a request was returned wait after it, wherever they are now. -/
theorem returnRequestToPool_waiting (request choice : Nat) (s : PoolWaiting) :
    (s.returnRequestToPool request choice).waiting.Perm s.waiting :=
  (commandWakeup_frame choice _).2.2.2

theorem Sound.returned (sound : Sound n s) (used : request ∈ s.inUse.map Prod.fst) (choice : Nat) :
    Sound n (s.returnRequestToPool request choice) := by
  obtain ⟨pool,inUse,_,moved⟩ := commandWakeup_frame choice { s with
    requestPool := request :: s.requestPool
    inUse := s.inUse.filter fun held => held.1 != request }
  have held := sound.pooled.congr (.refl _) (sound.held_split used).symm
  refine ⟨?_,fun waiter member => sound.blank waiter (moved.mem_iff.mp member)⟩
  rw [returnRequestToPool,pool,inUse]
  exact held.returned.congr held.insert_perm.symm (.refl _)

theorem Sound.keeps (sound : Sound n s) (taken : poolStep a s = some s') : Sound n s' := by
  rcases poolStep_cases taken with ⟨caller,_,_,rfl⟩ | ⟨caller,request,rest,_,pool,rfl⟩ |
    ⟨request,choice,_,used,rfl⟩ | ⟨waiter,_,member,rfl⟩
  · refine ⟨sound.pooled,fun waiter member => ?_⟩
    simp only [waiting,List.mem_append,List.mem_singleton] at member
    rcases member with (asleep | rfl) | woken
    · exact sound.blank waiter (List.mem_append_left _ asleep)
    · rfl
    · exact sound.blank waiter (List.mem_append_right _ woken)
  · have first : request ∈ s.requestPool := pool ▸ List.mem_cons_self
    have drawn := sound.pooled.drawn first
    rw [pool,List.erase_cons_head] at drawn
    exact ⟨drawn,sound.blank⟩
  · exact sound.returned used choice
  · have blank := sound.blank waiter (List.mem_append_right _ member)
    have moved := resume_waiting member blank
    refine ⟨?_,fun other inside => sound.blank other (moved.mem_iff.mp inside)⟩
    rw [resume_eq blank]
    exact sound.pooled

theorem Sound.stays (sound : Sound n s) (taken : poolStep a s = some s')
    (waits : waiter ∈ s.waiting) : waiter ∈ s'.waiting := by
  rcases poolStep_cases taken with ⟨caller,_,_,rfl⟩ | ⟨caller,request,rest,_,pool,rfl⟩ |
    ⟨request,choice,_,used,rfl⟩ | ⟨resumed,_,member,rfl⟩
  · rcases List.mem_append.mp waits with asleep | woken
    · exact List.mem_append_left _ (List.mem_append_left _ asleep)
    · exact List.mem_append_right _ woken
  · exact waits
  · exact (returnRequestToPool_waiting request choice s).mem_iff.mpr waits
  · have blank := sound.blank resumed (List.mem_append_right _ member)
    exact (resume_waiting member blank).mem_iff.mpr waits

theorem sound_run (run : Run poolStep allowed (started queueSize) actions s) :
    Sound (queueSize + 32) s := by
  apply Run.keeps (Sound (queueSize + 32)) _ run (sound_started queueSize)
  intro before a after _ taken sound
  exact sound.keeps taken

/-- No wakeup, and no request that comes back, ever gets a sleeper out of `requestFromPool`. -/
theorem waiting_for_ever (run : Run poolStep allowed (started queueSize) actions s)
    (later : Run poolStep permitted s more s') (waits : waiter ∈ s.waiting) :
    waiter ∈ s'.waiting := by
  have kept := Run.keeps (fun s => Sound (queueSize + 32) s ∧ waiter ∈ s.waiting)
    (fun _ taken before => ⟨before.1.keeps taken,before.1.stays taken before.2⟩) later
  exact (kept ⟨sound_run run,waits⟩).2

end PoolWaiting

namespace VirtioBlockDevice

variable {d d' : VirtioBlockDevice}

theorem retryPending_requestPool (submits : Nat → IOReturn) (k : Nat) (pending : List Nat)
    (d : VirtioBlockDevice) : (retryPending submits k pending d).requestPool = d.requestPool := by
  induction pending generalizing d k with
  | nil => rfl
  | cons next rest ih =>
    rw [retryPending]
    split
    · rfl
    · exact ih _ _

theorem wakeup_requestPool (request : Nat) (d : VirtioBlockDevice) :
    (d.wakeup request).requestPool = d.requestPool := by
  rw [wakeup]
  split
  · rfl
  · rfl

theorem CallOutcome.requestPool (outcome : CallOutcome d submit leaks result d') :
    d'.requestPool = d.requestPool ∨ ∃ request, d.requestPool = request :: d'.requestPool := by
  cases outcome with
  | refused => exact .inl rfl
  | leaked r lost pool => exact .inr ⟨_,pool⟩
  | handed r pool => exact .inr ⟨_,pool⟩
  | deferred r pool => exact .inr ⟨_,pool⟩
  | failed => exact .inl rfl

/-- What a step of the device does to the pool: it leaves the pool as it was, takes its first
object, or returns an object that was in use. -/
theorem blockStep_requestPool (taken : blockStep a d = some d') :
    d'.requestPool = d.requestPool ∨ (∃ request, d.requestPool = request :: d'.requestPool) ∨
      ∃ request ∈ d.used, d'.requestPool = request :: d.requestPool := by
  cases a with
  | readWrite args submit =>
    cases taken
    exact (doAsyncReadWrite_outcome args submit d).requestPool.imp_right .inl
  | synchronizeCache submit =>
    cases taken
    exact (doSynchronizeCache_outcome submit d).requestPool.imp_right .inl
  | complete request status submits =>
    obtain ⟨member,⟨_,rfl⟩ | ⟨_,rfl⟩⟩ := transportCompletes_cases taken
    · exact .inr (.inr ⟨request,by simp [used,member],rfl⟩)
    · apply Or.inl
      rw [flushRequestCompleted,wakeup_requestPool,handlePendingRequests,if_neg Bool.false_ne_true,
        retryPending_requestPool]
      rfl
  | drain submits =>
    rw [drain_cases taken,retryPending_requestPool]
    exact .inl rfl
  | resume request =>
    obtain ⟨member,rfl⟩ := resume_cases taken
    exact .inr (.inr ⟨request,by simp [used,member],rfl⟩)

theorem Core.inUse (core : Core n leaked d) (sound : PoolWaiting.Sound n s)
    (same : s.requestPool = d.requestPool) (member : request ∈ d.used) :
    request ∈ s.inUse.map Prod.fst := by
  have known : request ∈ List.range n := core.owned.mem_iff.mp
    (List.mem_append_left _ (List.mem_append_right _ member))
  have outside : request ∉ s.requestPool := fun inside => core.pooled (same ▸ inside) member
  exact (List.mem_append.mp (sound.pooled.conserved.mem_iff.mpr known)).resolve_left outside

/-- The pool of the device goes through runs of the pool with its waiting callers. -/
theorem pool_run {queueSize blockSize capacity : Nat}
    (run : Run blockStep allowed (started queueSize blockSize capacity) actions d) :
    ∃ moves s, Run poolStep (fun _ _ => True) (.started queueSize) moves s ∧
      s.requestPool = d.requestPool := by
  have kept := Run.keeps (fun d => (∃ leaked, Core (queueSize + 32) leaked d) ∧
    ∃ moves s, Run poolStep (fun _ _ => True) (.started queueSize) moves s ∧
      s.requestPool = d.requestPool) ?_ run
  · refine (kept ⟨⟨[],core_started queueSize blockSize capacity⟩,[],_,.nil,?_⟩).2
    rw [PoolWaiting.started_eq,started,pool_foldl,List.append_nil]
  rintro d a next _ taken ⟨⟨leaked,core⟩,moves,s,before,same⟩
  obtain ⟨more,after,_⟩ := core.keeps taken
  refine ⟨⟨_,after⟩,?_⟩
  rcases blockStep_requestPool taken with kept | ⟨request,first⟩ | ⟨request,member,back⟩
  · exact ⟨moves,s,before,same.trans kept.symm⟩
  · obtain ⟨caller,fresh⟩ :=
      Infinite.exists_notMem_finset (s.waiting.map PoolWaiter.caller).toFinset
    have enabled : poolStep (.requestFromPool caller) s = some (s.requestFromPool caller) :=
      if_neg (by simpa using fresh)
    refine ⟨_,_,before.snoc trivial enabled,?_⟩
    rw [PoolWaiting.requestFromPool_requestPool,same,first,List.tail_cons]
  · have used := core.inUse (PoolWaiting.sound_run before) same member
    have enabled : poolStep (.returnRequestToPool request 0) s =
        some (s.returnRequestToPool request 0) := if_pos used
    refine ⟨_,_,before.snoc trivial enabled,?_⟩
    rw [PoolWaiting.returnRequestToPool_requestPool,same,back]

end VirtioBlockDevice

/-- What waiting is for. With requests in the pool, a woken caller leaves the loop with one of
them, and nobody goes to sleep. -/
def Served (s : PoolWaiting) (a : PoolAction) : Prop :=
  ∀ s', poolStep a s = some s' → s.requestPool ≠ [] →
    (∀ waiter, a = .resume waiter → waiter.caller ∉ s'.waiting.map PoolWaiter.caller ∧
      ∃ request ∈ s.requestPool, s'.requestPool = s.requestPool.erase request ∧
        s'.inUse = (request, waiter.caller) :: s.inUse) ∧
    s'.sleeping ⊆ s.sleeping

def EmptyAtResume (s : PoolWaiting) : PoolAction → Prop
  | .resume _ => s.requestPool = []
  | _ => True

namespace PoolWaiting

variable {s s' : PoolWaiting}

theorem served_of_empty (taken : poolStep a s = some s') (empty : EmptyAtResume s a) :
    Served s a := by
  intro after same filled
  obtain rfl := Option.some.inj (taken.symm.trans same)
  rcases poolStep_cases taken with ⟨caller,_,none,_⟩ | ⟨caller,request,rest,rfl,pool,rfl⟩ |
    ⟨request,choice,rfl,_,rfl⟩ | ⟨waiter,rfl,_,_⟩
  · exact absurd none filled
  · exact ⟨by simp,List.Subset.refl _⟩
  · exact ⟨by simp,(commandWakeup_frame choice _).2.2.1⟩
  · exact absurd empty filled

/-- A woken caller takes nothing out of the pool. -/
theorem Sound.empty_of_served (sound : Sound n s) (taken : poolStep a s = some s')
    (served : Served s a) : EmptyAtResume s a := by
  rcases poolStep_cases taken with ⟨_,rfl,_⟩ | ⟨_,_,_,rfl,_⟩ | ⟨_,_,rfl,_⟩ |
    ⟨waiter,rfl,member,rfl⟩
  · trivial
  · trivial
  · trivial
  · by_contra filled
    obtain ⟨_,request,present,shorter,_⟩ := (served _ taken filled).1 waiter rfl
    rw [resume_eq (sound.blank waiter (List.mem_append_right _ member))] at shorter
    have lengths : s.requestPool.length = (s.requestPool.erase request).length :=
      congrArg List.length shorter
    have some := List.length_pos_of_mem present
    rw [List.length_erase_of_mem present] at lengths
    omega

/-- A run serves its callers exactly if it never lets one of them find a request. -/
theorem run_served_iff (queueSize : Nat) (actions : List PoolAction) (s : PoolWaiting) :
    Run poolStep Served (started queueSize) actions s ↔
      Run poolStep EmptyAtResume (started queueSize) actions s := by
  constructor
  · intro served
    exact served.mono_keeps (Sound (queueSize + 32)) (fun taken sound => sound.keeps taken)
      (fun sound taken => sound.empty_of_served taken) (sound_started queueSize)
  · intro empty
    exact empty.mono_keeps (fun _ => True) (fun _ _ => trivial)
      (fun _ taken => served_of_empty taken) trivial

end PoolWaiting

/-- In every run, whatever the order of callers, returns and wakeups, no request is in use twice
or in use and in the pool. A run keeps the promise of waiting exactly if the pool is empty
whenever a woken caller runs again. -/
theorem pool_callers_served_iff (queueSize : Nat) (actions : List PoolAction) (s : PoolWaiting)
    (run : Run poolStep (fun _ _ => True) (.started queueSize) actions s) :
    (s.requestPool ++ s.inUse.map Prod.fst).Nodup ∧
    (Run poolStep Served (.started queueSize) actions s ↔
      Run poolStep EmptyAtResume (.started queueSize) actions s) :=
  ⟨(PoolWaiting.sound_run run).pooled.nodup,PoolWaiting.run_served_iff queueSize actions s⟩

def checkEmptyAtResume (s : PoolWaiting) : PoolAction → Bool
  | .resume _ => s.requestPool.isEmpty
  | _ => true

theorem emptyAtResume_iff_check (s : PoolWaiting) (a : PoolAction) :
    EmptyAtResume s a ↔ checkEmptyAtResume s a = true := by
  cases a <;> simp [EmptyAtResume,checkEmptyAtResume]

/-- With 33 requests, caller 33 finds the pool empty and sleeps; the request of caller 0 comes
back and wakes it. -/
def oneReturned : List PoolAction :=
  (List.range 34).map .requestFromPool ++ [.returnRequestToPool 32 0]

/-- Another caller gets the request before the woken one runs. -/
def overtaken : List PoolAction := oneReturned ++ [.requestFromPool 34, .resume ⟨33, none⟩]

theorem pool_callers_served_overtaken :
    ∃ s, Run poolStep Served (.started 1) overtaken s ∧ s.requestPool = [] ∧
      s.sleeping = [⟨33, none⟩] ∧ (s.inUse.map Prod.fst).Nodup := by
  have played : (play poolStep checkEmptyAtResume overtaken (.started 1)).map
      (fun s => (s.requestPool,s.sleeping)) = some ([],[⟨33,none⟩]) := by decide +kernel
  obtain ⟨s,played,facts⟩ := Option.map_eq_some_iff.mp played
  obtain ⟨pool,sleeping⟩ := Prod.mk.inj facts
  have empty : Run poolStep EmptyAtResume (.started 1) overtaken s :=
    run_of_play (fun s a => (emptyAtResume_iff_check s a).mpr) played
  obtain ⟨exclusive,served⟩ := pool_callers_served_iff 1 overtaken s (empty.mono fun _ => trivial)
  exact ⟨s,served.mpr empty,pool,sleeping,(List.nodup_append.mp exclusive).2.1⟩

def stranding : List PoolAction := oneReturned ++ [.resume ⟨33, none⟩]

/-- The caller has been woken before the pool is empty again, and goes back to sleep beside it. -/
theorem woken_caller_stranded :
    ∃ s, Run poolStep (fun _ _ => True) (.started 1) stranding s ∧ s.requestPool = [32] ∧
      s.sleeping = [⟨33, none⟩] ∧ ¬Run poolStep Served (.started 1) stranding s := by
  have played : (play poolStep (fun _ _ => true) stranding (.started 1)).map
      (fun s => (s.requestPool,s.sleeping)) = some ([32],[⟨33,none⟩]) := by decide +kernel
  have refused : (play poolStep checkEmptyAtResume stranding (.started 1)).isNone := by
    decide +kernel
  obtain ⟨s,played,facts⟩ := Option.map_eq_some_iff.mp played
  obtain ⟨pool,sleeping⟩ := Prod.mk.inj facts
  refine ⟨s,run_of_play (fun _ _ _ => trivial) played,pool,sleeping,fun served => ?_⟩
  have empty := (PoolWaiting.run_served_iff 1 stranding s).mp served
  rw [play_of_run (fun s a => (emptyAtResume_iff_check s a).mp) empty] at refused
  cases refused

end VirtioOsx
