import VirtioOsx.DeviceRuns

/-! What a driver has to do with its queue: the submissions it makes, the completions that
processing the queue invokes, and everything that goes on without it. -/
namespace VirtioOsx

open Runs

structure SubmitDma where
  readable : DmaCalls
  writable : DmaCalls
  table : DmaCalls

namespace Machine

variable {m m' : Machine}

/-- The submission of `call`: what it returns, and the queue that it leaves. -/
def transmit (m : Machine) (call : SubmitCall) : Option (IOReturn × Machine) :=
  (m.submit call).bind fun machine =>
    (submitBuffers m.queue call).map fun ret => (ret.result, machine)

/-- The steps of the queue and of the device in which the driver has no part. -/
def transport (m : Machine) (a : Action) : Option Machine :=
  match a with
  | .submit _ | .advance | .complete _ _ => none
  | a => step a m

theorem unprocessed_inflight (member : e ∈ m.unprocessed) : e.fetched.request ∈ m.inflight := by
  simp only [Machine.inflight,List.mem_append]
  exact .inr (.inr (.inr (List.mem_map_of_mem member)))

theorem owned_inflight (member : f ∈ m.owned) : f.request ∈ m.inflight := by
  simp only [Machine.inflight,List.mem_append]
  exact .inr (.inr (.inl (List.mem_map_of_mem member)))

def waiting (m : Machine) : List Nat := m.unprocessed.map fun e => e.fetched.request.completion.ref

structure Unseen (m m' : Machine) : Prop where
  inflight : m.inflight.Perm m'.inflight
  unprocessed : m'.unprocessed = m.unprocessed

theorem Unseen.refl (m : Machine) : Unseen m m := ⟨.refl _,rfl⟩

theorem waiting_of_unprocessed (same : m'.unprocessed = m.unprocessed) :
    m'.waiting = m.waiting := by
  rw [waiting,waiting,same]

theorem Unseen.waiting (unseen : Unseen m m') : m'.waiting = m.waiting :=
  waiting_of_unprocessed unseen.unprocessed

/-- The step invokes the completion of the oldest entry that the device has returned. -/
structure Invokes (m : Machine) (e : Returned) (m' : Machine) : Prop where
  unprocessed : m.unprocessed = e :: m'.unprocessed
  inflight : m.inflight.Perm (e.fetched.request :: m'.inflight)

theorem Invokes.member (invokes : Invokes m e m') : e.fetched.request ∈ m.inflight :=
  invokes.inflight.mem_iff.mpr List.mem_cons_self

theorem Invokes.waiting (invokes : Invokes m e m') :
    m.waiting = e.fetched.request.completion.ref :: m'.waiting := by
  rw [Machine.waiting,invokes.unprocessed]
  rfl

end Machine

/-- What a submission does to the queue: it succeeds with one more request in flight, or it
fails and leaves the requests in flight alone. -/
structure Transmitted (m : Machine) (call : SubmitCall) (result : IOReturn) (m' : Machine) :
    Prop where
  moved : step (.submit call) m = some m'
  log : m'.log = m.log
  returned : m'.returned = m.returned
  outcome : (result = .success ∧ ∃ r, r.completion = call.completion ∧
      m'.inflight.Perm (r :: m.inflight)) ∨
    result ≠ .success ∧ m'.submitting = none ∧ m'.inflight = m.inflight

/-- A submission that has not published its request does not return success. -/
def Publishes (m : Machine) (call : SubmitCall) : Prop :=
  ∀ queue, buildChain m.queue call ≠ .returned .success queue

def checkPublishes (m : Machine) (call : SubmitCall) : Bool :=
  match buildChain m.queue call with
  | .next _ => true
  | .returned result _ => result != .success && decide (m.queue.numUnusedDescriptors ≤ 1)
  | .stuck => false

theorem publishes_of_check {m : Machine} (checked : checkPublishes m call = true) :
    ¬Corrupting m.queue call ∧ Publishes m call := by
  unfold checkPublishes at checked
  split at checked
  · rename_i built
    refine ⟨fun corrupting => ?_,fun queue left => ?_⟩
    · have failed := buildChain_corrupting corrupting
      rw [built] at failed
      exact failed
    · rw [built] at left
      cases left
  · rename_i result queue left
    simp only [Bool.and_eq_true,bne_iff_ne,ne_eq,decide_eq_true_eq] at checked
    refine ⟨fun corrupting => ?_,fun other again => ?_⟩
    · have several := corrupting.2.1
      omega
    · rw [left] at again
      cases again
      exact checked.1 rfl
  · cases checked

theorem Machine.transmit_cases {m m' : Machine} (published : Publishes m call)
    (sent : m.transmit call = some (result, m')) : Transmitted m call result m' := by
  obtain ⟨machine,taken,rest⟩ := Option.bind_eq_some_iff.mp sent
  obtain ⟨ret,returned,same⟩ := Option.map_eq_some_iff.mp rest
  obtain ⟨rfl,rfl⟩ := Prod.mk.inj same
  obtain ⟨quiet,⟨head,queue,built,rfl⟩ | ⟨result,queue,left,rfl⟩⟩ := Machine.submit_cases taken
  · refine ⟨taken,rfl,rfl,.inl ⟨?_,builtRequest queue head call.completion,rfl,?_⟩⟩
    · simp only [submitBuffers,built] at returned
      rw [← Option.some.inj returned]
    · simp [Machine.inflight,Machine.unconsumed,Machine.unprocessed,unpublished,quiet]
  · refine ⟨taken,rfl,rfl,.inr ⟨?_,quiet,?_⟩⟩
    · simp only [submitBuffers,left] at returned
      rw [← Option.some.inj returned]
      rintro rfl
      exact published queue left
    · simp [Machine.inflight,Machine.unconsumed,Machine.unprocessed]

theorem Transmitted.unprocessed {m m' : Machine} (transmitted : Transmitted m call result m') :
    m'.unprocessed = m.unprocessed := by
  rw [Machine.unprocessed,Machine.unprocessed,transmitted.log,transmitted.returned]

theorem Transmitted.accepted {m m' : Machine} (transmitted : Transmitted m call .success m') :
    ∃ r, r.completion = call.completion ∧ m'.inflight.Perm (r :: m.inflight) :=
  (transmitted.outcome.resolve_right fun failed => failed.1 rfl).2

theorem Transmitted.unseen {m m' : Machine} (transmitted : Transmitted m call result m')
    (failed : result ≠ .success) : m.Unseen m' := by
  obtain ⟨_,_,inflight⟩ := transmitted.outcome.resolve_left fun success => failed success.1
  exact ⟨inflight ▸ .refl _,transmitted.unprocessed⟩

/-- At most one step of the queue, and a submission only of what is `asked` for. -/
inductive QueueMove (asked : SubmitCall → Prop) (m m' : Machine) : Prop where
  | stays : m' = m → QueueMove asked m m'
  | steps (a : Action) : Sound m a → step a m = some m' →
      (∀ call, a = .submit call → asked call) → QueueMove asked m m'

namespace QueueMove

variable {asked : SubmitCall → Prop} {m m' : Machine}

theorem submits (transmitted : Transmitted m call result m') (sound : ¬Corrupting m.queue call)
    (called : asked call) : QueueMove asked m m' := by
  refine .steps _ ?_ transmitted.moved ?_
  · rintro other same
    obtain rfl := Action.submit.inj same
    exact sound
  · rintro other same
    obtain rfl := Action.submit.inj same
    exact called

theorem silent (a : Action) (moved : step a m = some m') (quiet : ∀ call, a ≠ .submit call) :
    QueueMove asked m m' :=
  .steps a (fun call same => absurd same (quiet call)) moved
    (fun call same => absurd same (quiet call))

theorem run (move : QueueMove asked m m') : ∃ actions, Run step Sound m actions m' := by
  cases move with
  | stays same => exact ⟨[],same ▸ .nil⟩
  | steps a sound moved _ => exact ⟨[a],.cons sound moved .nil⟩

end QueueMove

namespace MachineInv

variable {m m' : Machine}

/-- A step of the processing call goes unseen, or it invokes one completion. -/
theorem advances (inv : MachineInv n lost m) (taken : m.advance = some m') :
    (m.Unseen m' ∧ m'.log[m.log.length]? = none) ∨
      ∃ e, m.Invokes e m' ∧ m'.log[m.log.length]? = some e.invocation := by
  obtain ⟨returned,untouched | ⟨e,_,oldest,log,inflight,_⟩⟩ := inv.advanced taken
  · refine .inl ⟨⟨untouched.inflight,?_⟩,?_⟩
    · simp only [Machine.unprocessed,returned,untouched.log]
    · rw [untouched.log]
      exact List.getElem?_eq_none (Nat.le_refl _)
  · obtain ⟨inside,value⟩ := List.getElem?_eq_some_iff.mp oldest
    refine .inr ⟨e,⟨?_,?_⟩,by simp [log]⟩
    · simp only [Machine.unprocessed,returned,log,List.length_append,List.length_singleton,
        List.drop_eq_getElem_cons inside,value]
    · rw [inflight]
      exact Machine.inflight_oldest (Machine.advance_cases taken).1 oldest

theorem completes (inv : MachineInv n lost m)
    (taken : m.complete place writtenBytes = some m') :
    m.inflight.Perm m'.inflight ∧ ∃ f, m.owned[place]? = some f ∧
      m'.unprocessed = m.unprocessed ++ [⟨f, writtenBytes⟩] := by
  have inflight := Machine.complete_inflight inv.used.processed taken
  obtain ⟨f,held,rfl⟩ := Option.map_eq_some_iff.mp taken
  refine ⟨inflight,f,held,?_⟩
  simp only [Machine.unprocessed,List.drop_append_of_le_length inv.used.processed]

theorem transports (inv : MachineInv n lost m) (taken : m.transport a = some m') :
    step a m = some m' ∧ (∀ call, a ≠ .submit call) ∧ a ≠ .advance ∧ m.Unseen m' := by
  have plain : step a m = some m' ∧ (∀ call, a ≠ .submit call) ∧ a ≠ .advance ∧
      m'.returned = m.returned := by
    cases a with
    | submit | advance | complete => cases taken
    | publish =>
      refine ⟨taken,by simp,by simp,?_⟩
      rcases Machine.publish_cases taken with ⟨_,_,rfl⟩ | ⟨_,_,rfl⟩ | ⟨_,rfl⟩
      · rfl
      · rfl
      · rfl
    | fetch =>
      refine ⟨taken,by simp,by simp,?_⟩
      obtain ⟨_,_,_,rfl⟩ := Machine.fetch_cases taken
      rfl
    | process | suppress | enable | recheck | kick =>
      refine ⟨taken,by simp,by simp,?_⟩
      simp only [Machine.transport,step,Machine.process,Machine.suppress,Machine.enable,
        Machine.recheck,Machine.kick] at taken
      split at taken
      · obtain rfl := Option.some.inj taken
        rfl
      · cases taken
  obtain ⟨moved,noSubmit,noAdvance,returned⟩ := plain
  have untouched := inv.untouched moved noSubmit noAdvance
  refine ⟨moved,noSubmit,noAdvance,untouched.inflight,?_⟩
  simp only [Machine.unprocessed,returned,untouched.log]

end MachineInv

/-- An entry that the device holds is not one that it has returned. -/
theorem Machine.held_apart {m : Machine} (distinct : (m.inflight.map fun r => r.completion.ref).Nodup)
    (held : f ∈ m.owned) (member : e ∈ m.unprocessed) :
    f.request.completion.ref ≠ e.fetched.request.completion.ref := by
  simp only [Machine.inflight,List.map_append,List.map_map] at distinct
  have split := (List.nodup_append.mp (List.nodup_append.mp
    (List.nodup_append.mp distinct).2.1).2.1).2.2
  exact split _ (List.mem_map_of_mem held) _ (List.mem_map_of_mem member)

end VirtioOsx
