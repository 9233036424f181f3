import VirtioOsx.UnusedList
import VirtioOsx.SubmitDirect

/-! How emission builds a chain: one output-function call fills one descriptor, patches
the previous one, and keeps the device-visible `next` fields and the driver-private
`next_desc` links in step. -/
namespace VirtioOsx

abbrev Entry := Segment64 × Bool

def entryFlags (entry : Entry) : Nat := if entry.2 then VirtioVringDescFlag.deviceWritable else 0

def descriptorOf (entry : Entry) (successor : Option Nat) : VirtioVringDesc :=
  ⟨entry.1.fIOVMAddr, entry.1.fLength % 2^32,
    entryFlags entry ||| (if successor.isSome then VirtioVringDescFlag.next else 0),
    successor.getD 0xffff⟩

/-- The listed table entries describe these segments, linked in this order by NEXT. -/
def Encodes (table : Nat → VirtioVringDesc) : List Nat → List Entry → Prop
  | [], [] => True
  | i :: rest, entry :: entries =>
    table i = descriptorOf entry rest.head? ∧ Encodes table rest entries
  | _, _ => False

theorem Encodes.length (encodes : Encodes table nodes entries) : nodes.length = entries.length := by
  induction nodes generalizing entries with
  | nil => cases entries with
    | nil => rfl
    | cons => exact absurd encodes id
  | cons i rest ih => cases entries with
    | nil => exact absurd encodes id
    | cons entry entries => simp [ih encodes.2]

theorem Encodes.congr (same : ∀ i ∈ nodes, other i = table i)
    (encodes : Encodes table nodes entries) : Encodes other nodes entries := by
  induction nodes generalizing entries with
  | nil => cases entries with
    | nil => trivial
    | cons => exact absurd encodes id
  | cons i rest ih => cases entries with
    | nil => exact absurd encodes id
    | cons entry entries =>
      refine ⟨?_,ih (fun j member => same j (List.mem_cons_of_mem i member)) encodes.2⟩
      rw [same i List.mem_cons_self]
      exact encodes.1

theorem fillVringDescriptor_self (table : Nat → VirtioVringDesc) (i : Nat) (index : Int)
    (segment : Segment64) (writable : Bool) (apart : previous ≠ some i) :
    fillVringDescriptor table i index previous segment writable i =
      descriptorOf (segment,writable) none := by
  cases previous with
  | none => simp [fillVringDescriptor,descriptorOf,entryFlags]
  | some p =>
    have different : i ≠ p := fun same => apart (by rw [same])
    simp [fillVringDescriptor,descriptorOf,entryFlags,different]

theorem fillVringDescriptor_previous (table : Nat → VirtioVringDesc) (i p : Nat) (index : Int)
    (segment : Segment64) (writable : Bool) (different : p ≠ i) :
    fillVringDescriptor table i index (some p) segment writable p =
      { table p with
        next := uint16 index, flags := (table p).flags ||| VirtioVringDescFlag.next } := by
  simp [fillVringDescriptor,different]

theorem fillVringDescriptor_other (table : Nat → VirtioVringDesc) (i j : Nat) (index : Int)
    (segment : Segment64) (writable : Bool) (different : j ≠ i) (apart : previous ≠ some j) :
    fillVringDescriptor table i index previous segment writable j = table j := by
  cases previous with
  | none => simp [fillVringDescriptor,different]
  | some p =>
    have away : j ≠ p := fun same => apart (by rw [same])
    simp [fillVringDescriptor,different,away]

theorem descriptorOf_patched (entry : Entry) (small : i < 65536) :
    { descriptorOf entry none with
      next := uint16 i, flags := (descriptorOf entry none).flags ||| VirtioVringDescFlag.next } =
    descriptorOf entry (some i) := by
  simp [descriptorOf,uint16_cast i small]

theorem encodes_single (table : Nat → VirtioVringDesc) (i : Nat) (index : Int)
    (segment : Segment64) (writable : Bool) :
    Encodes (fillVringDescriptor table i index none segment writable) [i] [(segment,writable)] :=
  ⟨fillVringDescriptor_self table i index segment writable (by simp),trivial⟩

theorem Encodes.snoc {segment : Segment64} (encodes : Encodes table (front ++ [last]) entries)
    (apart : i ∉ front ++ [last]) (fresh : last ∉ front) (small : i < 65536) :
    Encodes (fillVringDescriptor table i i (some last) segment writable) (front ++ [last] ++ [i])
      (entries ++ [(segment,writable)]) := by
  have different : last ≠ i := fun same => apart (by simp [same])
  have self : fillVringDescriptor table i i (some last) segment writable i =
      descriptorOf (segment,writable) none :=
    fillVringDescriptor_self table i i segment writable (by simpa using different)
  induction front generalizing entries with
  | nil =>
    match entries, encodes with
    | [entry], encodes =>
      refine ⟨?_,self,trivial⟩
      rw [fillVringDescriptor_previous _ _ _ _ _ _ different,encodes.1]
      exact descriptorOf_patched entry small
  | cons j rest ih =>
    match entries, encodes with
    | entry :: entries, encodes =>
      have notNew : j ≠ i := fun same => apart (by simp [same])
      have notLast : some last ≠ some j := fun same => fresh (by simp [Option.some.inj same])
      refine ⟨?_,ih encodes.2 ?_ ?_⟩
      · rw [fillVringDescriptor_other _ _ _ _ _ _ notNew notLast,encodes.1]
        cases rest <;> rfl
      · exact fun member => apart (List.mem_cons_of_mem j member)
      · exact fun member => fresh (List.mem_cons_of_mem j member)

/-- The descriptors that emission uses next, in order: the reserved one until it has
been used, then the unused list. -/
inductive Awaiting (chain : VringDescChain) : List Nat → Prop where
  | unreserved : chain.reservedDescriptorIndex = uint16Max → Unused chain.queue pending →
      Awaiting chain pending
  | reserved : chain.reservedDescriptorIndex = i → i < 32768 → Unused chain.queue free →
      Awaiting chain (i :: free)

def chainStart (nodes : List Nat) : Int := (nodes.head?.map Int.ofNat).getD (-1)

/-- The queue holds a chain `descs` that describes `entries`, and differs from `base`
only in the links and table entries of `descs` and in the unused list. -/
structure Grown (base queue : VirtioVirtqueue) (descs : List Nat) (entries : List Entry) : Prop where
  listed : Listed queue.nextDesc (chainStart descs) descs
  encodes : Encodes queue.descriptorTable descs entries
  agree : Agree descs base queue
  fields : ∀ i, { queue.descriptorBuffers i with
    nextDesc := (base.descriptorBuffers i).nextDesc } = base.descriptorBuffers i

structure Building (base : VirtioVirtqueue) (chain : VringDescChain) (pending descs : List Nat)
    (entries : List Entry) : Prop where
  awaiting : Awaiting chain pending
  grown : Grown base chain.queue descs entries
  last : chain.currentLastDescriptorIndex = descs.getLast?.getD uint16Max
  nodup : (descs ++ pending).Nodup
  small : ∀ i ∈ descs ++ pending, i < 32768

theorem claimDescriptor_spec (awaiting : Awaiting chain (i :: rest)) :
    ∃ queue, claimDescriptor chain =
        ((i : Int), { chain with queue := queue, reservedDescriptorIndex := uint16Max }) ∧
      Unused queue rest ∧ Agree [] chain.queue queue := by
  cases awaiting with
  | unreserved unset unused =>
    refine ⟨reserved chain.queue i,?_,unused.reserve,agree_reserved [] chain.queue i⟩
    simp [claimDescriptor,unset,reserveNewDescriptor_cons unused]
  | reserved set small unused =>
    refine ⟨chain.queue,?_,unused,Agree.refl [] chain.queue⟩
    have different : i ≠ uint16Max := by simp only [uint16Max]; omega
    simp [claimDescriptor,set,different,int16_cast i small]

theorem Grown.congr (grown : Grown base queue descs entries) (same : Agree [] queue queue') :
    Grown base queue' descs entries where
  listed := same.listed (by simp) grown.listed
  encodes := grown.encodes.congr fun i _ => same.table i (by simp)
  agree := grown.agree.trans (same.mono (by simp))
  fields i := by rw [same.buffers i (by simp)]; exact grown.fields i

theorem Grown.fields_set {base queue : VirtioVirtqueue}
    (fields : ∀ i, { queue.descriptorBuffers i with
      nextDesc := (base.descriptorBuffers i).nextDesc } = base.descriptorBuffers i)
    (j : Nat) (link : Int) (i : Nat) :
    { (queue.modifyBuffer j fun b => { b with nextDesc := link }).descriptorBuffers i with
      nextDesc := (base.descriptorBuffers i).nextDesc } = base.descriptorBuffers i := by
  by_cases same : i = j
  · subst i; rw [VirtioVirtqueue.modifyBuffer_same]; exact fields j
  · rw [VirtioVirtqueue.modifyBuffer_other _ _ same]; exact fields i

def linkedFirst (queue : VirtioVirtqueue) (i : Nat) (entry : Entry) : VirtioVirtqueue :=
  { queue.modifyBuffer i (fun b => { b with nextDesc := -1 }) with
    descriptorTable := fillVringDescriptor queue.descriptorTable i i none entry.1 entry.2 }

def linkedLater (queue : VirtioVirtqueue) (last i : Nat) (entry : Entry) : VirtioVirtqueue :=
  { (queue.modifyBuffer last (fun b => { b with nextDesc := i })).modifyBuffer i
      (fun b => { b with nextDesc := -1 }) with
    descriptorTable := fillVringDescriptor queue.descriptorTable i i (some last) entry.1 entry.2 }

theorem linkDescriptor_first (queue : VirtioVirtqueue) (i : Nat) (segment : Segment64)
    (writable : Bool) :
    linkDescriptor ⟨queue,uint16Max,uint16Max,writable⟩ i segment =
      ⟨linkedFirst queue i (segment,writable),uint16Max,uint16 i,writable⟩ := by
  simp [linkDescriptor,linkedFirst,VirtioVirtqueue.modifyBuffer]

theorem linkDescriptor_later (queue : VirtioVirtqueue) (i last : Nat) (segment : Segment64)
    (writable : Bool) (set : last ≠ uint16Max) :
    linkDescriptor ⟨queue,uint16Max,last,writable⟩ i segment =
      ⟨linkedLater queue last i (segment,writable),uint16Max,uint16 i,writable⟩ := by
  simp [linkDescriptor,set,linkedLater,VirtioVirtqueue.modifyBuffer]

theorem nextDesc_linkedFirst (queue : VirtioVirtqueue) (i : Nat) (entry : Entry) :
    (linkedFirst queue i entry).nextDesc = Function.update queue.nextDesc i (-1) :=
  VirtioVirtqueue.nextDesc_set queue i (-1)

theorem nextDesc_linkedLater (queue : VirtioVirtqueue) (last i : Nat) (entry : Entry) :
    (linkedLater queue last i entry).nextDesc =
      Function.update (Function.update queue.nextDesc last i) i (-1) := by
  rw [← VirtioVirtqueue.nextDesc_set queue last i,← VirtioVirtqueue.nextDesc_set _ i (-1)]
  rfl

theorem agree_linkedFirst (queue : VirtioVirtqueue) (i : Nat) (entry : Entry) :
    Agree [i] queue (linkedFirst queue i entry) := by
  refine ⟨rfl,rfl,rfl,rfl,rfl,rfl,fun j apart => ?_,fun j apart => ?_⟩
  all_goals have different : j ≠ i := by simpa using apart
  · simp [linkedFirst,different]
  · simp [linkedFirst,fillVringDescriptor,different]

theorem agree_linkedLater (queue : VirtioVirtqueue) (last i : Nat) (entry : Entry) :
    Agree [last,i] queue (linkedLater queue last i entry) := by
  refine ⟨rfl,rfl,rfl,rfl,rfl,rfl,fun j apart => ?_,fun j apart => ?_⟩
  all_goals obtain ⟨notLast,notNew⟩ : j ≠ last ∧ j ≠ i := by simpa using apart
  · simp [linkedLater,notLast,notNew]
  · simp [linkedLater,fillVringDescriptor,notLast,notNew]

theorem Grown.linkFirst (grown : Grown base queue [] entries) (i : Nat) (entry : Entry) :
    Grown base (linkedFirst queue i entry) [i] [entry] where
  listed := by
    rw [nextDesc_linkedFirst]
    simp [chainStart]
  encodes := encodes_single queue.descriptorTable i i entry.1 entry.2
  agree := (grown.agree.mono (by simp)).trans (agree_linkedFirst queue i entry)
  fields := Grown.fields_set grown.fields i (-1)

theorem Grown.linkLater (grown : Grown base queue (front ++ [last]) entries)
    (apart : i ∉ front ++ [last]) (fresh : last ∉ front) (small : i < 65536) (entry : Entry) :
    Grown base (linkedLater queue last i entry) (front ++ [last] ++ [i]) (entries ++ [entry]) where
  listed := by
    have start : chainStart (front ++ [last] ++ [i]) = chainStart (front ++ [last]) := by
      cases front <;> rfl
    rw [nextDesc_linkedLater,start]
    exact grown.listed.snoc apart fresh
  encodes := grown.encodes.snoc apart fresh small
  agree := (grown.agree.mono (by simp)).trans
    ((agree_linkedLater queue last i entry).mono (by simp))
  fields := Grown.fields_set (Grown.fields_set grown.fields last i) i (-1)

/-- One output-function call appends the next pending descriptor to the chain. -/
theorem outputVringDescSegment_spec (building : Building base chain (i :: rest) descs entries)
    (segment : Segment64) :
    ∃ chain', outputVringDescSegment chain segment = some chain' ∧
      Building base chain' rest (descs ++ [i]) (entries ++ [(segment,chain.deviceWritable)]) ∧
      chain'.deviceWritable = chain.deviceWritable ∧
      chain'.reservedDescriptorIndex = uint16Max := by
  obtain ⟨queue,claimed,unused,same⟩ := claimDescriptor_spec building.awaiting
  have small : i < 32768 := building.small i (by simp)
  have nodup : (descs ++ [i] ++ rest).Nodup := by simpa using building.nodup
  have fresh : i ∉ rest := by
    have := List.nodup_append.mp nodup
    exact fun member => this.2.2 i (by simp) i member rfl
  have apart : i ∉ descs := fun member =>
    (List.nodup_append.mp building.nodup).2.2 i member i List.mem_cons_self rfl
  have grown := building.grown.congr same
  have output : outputVringDescSegment chain segment =
      some (linkDescriptor ⟨queue,uint16Max,chain.currentLastDescriptorIndex,chain.deviceWritable⟩
        i segment) := by
    simp only [outputVringDescSegment,claimed]
    exact if_neg (by omega)
  rw [output,building.last]
  have bounds : ∀ j ∈ descs ++ [i] ++ rest, j < 32768 := by simpa using building.small
  rcases List.eq_nil_or_concat' descs with rfl | ⟨front,last,rfl⟩
  · obtain rfl : entries = [] := List.length_eq_zero_iff.mp grown.encodes.length.symm
    refine ⟨_,rfl,?_,rfl,rfl⟩
    rw [List.getLast?_nil,Option.getD_none,linkDescriptor_first]
    refine ⟨.unreserved rfl ?_,grown.linkFirst i _,?_,nodup,bounds⟩
    · refine unused.congr rfl rfl fun j member => (agree_linkedFirst queue i _).nextDesc ?_
      exact fun inside => fresh (by rwa [List.mem_singleton.mp inside] at member)
    · simp [uint16_cast i (by omega)]
  · have set : last ≠ uint16Max := by
      have := building.small last (by simp)
      simp only [uint16Max]; omega
    have distinct : (front ++ [last]).Nodup := (List.nodup_append.mp building.nodup).1
    have endFresh : last ∉ front := fun member =>
      (List.nodup_append.mp distinct).2.2 last member last (by simp) rfl
    have outside : last ∉ rest := fun member =>
      (List.nodup_append.mp nodup).2.2 last (by simp) last member rfl
    refine ⟨_,rfl,?_,rfl,rfl⟩
    rw [List.getLast?_concat,Option.getD_some,linkDescriptor_later _ _ _ _ _ set]
    refine ⟨.unreserved rfl ?_,grown.linkLater apart endFresh (by omega) _,?_,nodup,bounds⟩
    · refine unused.congr rfl rfl fun j member => (agree_linkedLater queue last i _).nextDesc ?_
      intro inside
      rcases List.mem_pair.mp inside with rfl | rfl
      · exact outside member
      · exact fresh member
    · simp [uint16_cast i (by omega)]

/-- A run of output-function calls uses up a prefix of the pending descriptors. -/
theorem emitSegments_spec (building : Building base chain pending descs entries)
    (segments : List Segment64) (room : segments.length ≤ pending.length) :
    ∃ chain', emitSegments chain segments = some chain' ∧
      Building base chain' (pending.drop segments.length) (descs ++ pending.take segments.length)
        (entries ++ segments.map fun segment => (segment,chain.deviceWritable)) ∧
      (chain.reservedDescriptorIndex = uint16Max ∨ segments ≠ [] →
        chain'.reservedDescriptorIndex = uint16Max) := by
  induction segments generalizing chain pending descs entries with
  | nil => exact ⟨chain,rfl,by simpa using building,by simp⟩
  | cons segment segments ih =>
    obtain ⟨i,rest,rfl⟩ : ∃ i rest, pending = i :: rest := by
      cases pending with
      | nil => simp at room
      | cons i rest => exact ⟨i,rest,rfl⟩
    obtain ⟨middle,output,grown,direction,clear⟩ := outputVringDescSegment_spec building segment
    obtain ⟨chain',emitted,final,kept⟩ := ih grown (by simpa using room)
    refine ⟨chain',?_,by simpa [direction] using final,fun _ => kept (Or.inl clear)⟩
    simpa [emitSegments,output] using emitted

end VirtioOsx
