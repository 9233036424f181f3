import VirtioOsx.DescriptorChain

/-! What a direct submission leaves behind, on every one of its exits. A rollback is
sound as long as the descriptor it starts from has been linked into a chain; otherwise
its `next_desc` still continues into the unused list. -/
namespace VirtioOsx

theorem VirtioVirtqueue.modifyBuffer_modifyBuffer (q : VirtioVirtqueue) (i : Nat) (f g) :
    (q.modifyBuffer i f).modifyBuffer i g = q.modifyBuffer i (fun b => g (f b)) := by
  simp [VirtioVirtqueue.modifyBuffer]

theorem agree_of_reserved (q : VirtioVirtqueue) (f) (member : i ∈ touched) :
    Agree touched q ((reserved q i).modifyBuffer i f) :=
  (agree_reserved touched q i).trans (agree_modifyBuffer _ f member)

theorem neutral_skip : Neutral (fun _ q => q) :=
  ⟨fun _ _ => rfl,fun _ _ => rfl,fun _ _ => rfl,fun _ q => Agree.refl _ q⟩

theorem neutral_clearDma : Neutral clearDma := by
  refine ⟨fun i q => ?_,fun i q => ?_,fun i q => ?_,fun i q => ?_⟩
  all_goals unfold clearDma; split
  · exact VirtioVirtqueue.modifyBuffer_nextDesc q i _ fun _ => rfl
  all_goals first | rfl | exact Agree.refl _ q | exact agree_modifyBuffer q _ (by simp)

theorem rollback_eq (released : releaseChain visit q.numEntries start q = some q') :
    (rollback visit result start q : Phase α) = .returned result q' := by
  simp [rollback,released]

/-- A rollback over a chain apart from the unused list hands the whole chain back. -/
theorem rollback_spec (neutral : Neutral visit) (unused : Unused q free)
    (listed : Listed q.nextDesc start chain) (nodup : (chain ++ free).Nodup)
    (small : ∀ i ∈ chain, i < 32768) (fits : chain.length ≤ q.numEntries) :
    ∃ q', releaseChain visit q.numEntries start q = some q' ∧
      Unused q' (chain.reverse ++ free) ∧ Agree chain q q' := by
  have distinct := List.nodup_append.mp nodup
  exact releaseChain_spec neutral unused listed distinct.1
    (fun i member inside => distinct.2.2 i member i inside rfl) small fits

theorem GenOutcome.failure_ne (outcome : GenOutcome) : outcome.failure ≠ .success := by
  unfold GenOutcome.failure
  split <;> simp_all

/-- A half that is not incomplete has emitted at least one segment. -/
theorem GenOutcome.emitted (outcome : GenOutcome) (buf : IOMemoryDescriptor)
    (complete : outcome.incomplete buf = false) : outcome.segments ≠ [] := by
  intro empty
  simp [GenOutcome.incomplete,empty] at complete

theorem Grown.listed_modify (grown : Grown base queue descs entries) (i : Nat) (f)
    (kept : ∀ b, (f b).nextDesc = b.nextDesc) :
    Listed (queue.modifyBuffer i f).nextDesc (chainStart descs) descs := by
  rw [VirtioVirtqueue.modifyBuffer_nextDesc queue i f kept]
  exact grown.listed

/-- Emission that has linked the reserved descriptor leaves a proper unused list. -/
theorem Building.unused (building : Building base chain pending descs entries)
    (clear : chain.reservedDescriptorIndex = uint16Max) : Unused chain.queue pending := by
  cases building.awaiting with
  | unreserved _ unused => exact unused
  | reserved set small unused => simp only [set,uint16Max] at clear; omega

def readablePrepared (q : VirtioVirtqueue) (i : Nat) (buf : IOMemoryDescriptor)
    (completion : VirtioCompletion) : VirtioVirtqueue :=
  (reserved q i).modifyBuffer i fun b =>
    { b with completion := completion, dmaCmdUsed := true, dmaCmd := some buf }

theorem Unused.readablePrepared (unused : Unused q (i :: free)) (buf : IOMemoryDescriptor)
    (completion : VirtioCompletion) : Unused (readablePrepared q i buf completion) free :=
  unused.reserve.modifyBuffer _ fun _ => rfl

theorem building_readable (unused : Unused q (i :: free)) (buf : IOMemoryDescriptor)
    (completion : VirtioCompletion) :
    Building (readablePrepared q i buf completion)
      ⟨readablePrepared q i buf completion,uint16 i,uint16Max,false⟩ (i :: free) [] [] := by
  have bound : i < 32768 := unused.small i List.mem_cons_self
  refine ⟨.reserved (uint16_cast i (by omega)) bound (unused.readablePrepared buf completion),
    ⟨by simp [chainStart],trivial,Agree.refl _ _,fun _ => rfl⟩,rfl,?_,?_⟩
  · simpa using unused.nodup
  · simpa using unused.small

/-- How the readable half may end. A completed walk has used up a prefix of the unused
list; a failed one has given everything back. -/
def ReadableOutcome (q : VirtioVirtqueue) (buf : IOMemoryDescriptor) (completion : VirtioCompletion)
    (segments : List Segment64) (i : Nat) (free : List Nat) : Phase (Nat × VringDescChain) → Prop
  | .next (first, chain) => first = i ∧ segments ≠ [] ∧
      chain.reservedDescriptorIndex = uint16Max ∧
      Building (readablePrepared q i buf completion) chain ((i :: free).drop segments.length)
        ((i :: free).take segments.length) (segments.map fun segment => (segment,false))
  | .returned result q' => result ≠ .success ∧
      ∃ kept, Unused q' kept ∧ kept.Perm (i :: free) ∧ Agree (i :: free) q q'
  | .stuck => False

/-- A failing exit may change any field of the reserved descriptor but its link. -/
theorem nextDesc_of_reserved (q : VirtioVirtqueue) (i : Nat) (f)
    (kept : ∀ b, (f b).nextDesc = b.nextDesc) :
    ((reserved q i).modifyBuffer i f).nextDesc = q.nextDesc :=
  VirtioVirtqueue.modifyBuffer_nextDesc (reserved q i) i f kept

/-- A rollback from a reserved descriptor that has not been linked is sound if it was
the last unused one. -/
theorem rollback_lone (neutral : Neutral visit) (unused : Unused q [i]) (f)
    (kept : ∀ b, (f b).nextDesc = b.nextDesc) (fits : 1 ≤ q.numEntries) :
    ∃ q', releaseChain visit q.numEntries i ((reserved q i).modifyBuffer i f) = some q' ∧
      Unused q' [i] ∧ Agree [i] q q' := by
  have emptied : Unused ((reserved q i).modifyBuffer i f) [] := unused.reserve.modifyBuffer f kept
  have listed : Listed ((reserved q i).modifyBuffer i f).nextDesc i [i] := by
    rw [nextDesc_of_reserved q i f kept]
    exact ⟨rfl,unused.listed.2⟩
  obtain ⟨q',released,final,agree⟩ := rollback_spec neutral emptied listed (by simp)
    unused.small fits
  exact ⟨q',released,by simpa using final,(agree_of_reserved q f (by simp)).trans agree⟩

/-- A rollback over a chain that emission has linked, after its first command has been
detached. -/
theorem Building.rolledBack (building : Building base chain pending descs entries)
    (clear : chain.reservedDescriptorIndex = uint16Max) (neutral : Neutral visit) (f)
    (kept : ∀ b, (f b).nextDesc = b.nextDesc) (fits : descs.length ≤ base.numEntries) :
    ∃ q', releaseChain visit chain.queue.numEntries (chainStart descs)
        (chain.queue.modifyBuffer i f) = some q' ∧
      Unused q' (descs.reverse ++ pending) ∧ Agree (i :: descs) base q' := by
  obtain ⟨q',released,final,agree⟩ := rollback_spec neutral
    ((building.unused clear).modifyBuffer f kept) (building.grown.listed_modify i f kept)
    building.nodup (fun j member => building.small j (List.mem_append_left _ member))
    (by rw [VirtioVirtqueue.modifyBuffer_numEntries,building.grown.agree.numEntries]; exact fits)
  refine ⟨q',released,final,?_⟩
  exact ((building.grown.agree.mono (by simp)).trans
    (agree_modifyBuffer _ f List.mem_cons_self)).trans (agree.mono (by simp))

/-- The readable half without a walk: `setMemoryDescriptor` has failed, and the one
descriptor is returned. -/
theorem submitDeviceReadable_unattached (unused : Unused q (i :: free)) (buf : IOMemoryDescriptor)
    (completion : VirtioCompletion) (dma : DmaCalls) (others : Nat)
    (failed : dma.setMemoryDescriptor ≠ .success) :
    ∃ q', submitDeviceReadable q buf completion dma others =
        .returned dma.setMemoryDescriptor q' ∧
      Unused q' (i :: free) ∧ Agree (i :: free) q q' := by
  have bound : i < 32768 := unused.small i List.mem_cons_self
  have fresh : i ∉ free := (List.nodup_cons.mp unused.nodup).1
  have index : ¬(i : Int) < 0 := by omega
  simp only [submitDeviceReadable,reserveNewDescriptor_cons unused,if_neg index,Int.toNat_natCast,
    if_pos failed]
  refine ⟨_,rfl,?_,?_⟩
  · apply Unused.giveBack _ fresh bound
    exact unused.reserve.modifyBuffer _ fun _ => rfl
  · exact (agree_of_reserved q _ List.mem_cons_self).trans
      (agree_returnUnusedDescriptor _ List.mem_cons_self)

/-- The readable half after a walk that has emitted nothing: the loop starts on the
reserved descriptor and follows its stale link. -/
theorem submitDeviceReadable_unlinked (unused : Unused q (i :: free)) (buf : IOMemoryDescriptor)
    (completion : VirtioCompletion) (dma : DmaCalls) (others : Nat)
    (attached : dma.setMemoryDescriptor = .success)
    (empty : (dma.genIOVMSegments.emit (q.numUnusedDescriptors - (others - 1))).segments = []) :
    ∃ result f, result ≠ .success ∧ (∀ b : VirtioBuffer, (f b).nextDesc = b.nextDesc) ∧
      submitDeviceReadable q buf completion dma others =
        rollback (fun _ queue => queue) result i ((reserved q i).modifyBuffer i f) := by
  have index : ¬(i : Int) < 0 := by omega
  refine ⟨_,fun b => { b with completion := completion, dmaCmdUsed := false, dmaCmd := none },
    GenOutcome.failure_ne (dma.genIOVMSegments.emit (q.numUnusedDescriptors - (others - 1))),
    fun _ => rfl,?_⟩
  simp only [submitDeviceReadable,reserveNewDescriptor_cons unused,if_neg index,Int.toNat_natCast,
    if_neg (not_not.mpr attached),VirtioVirtqueue.modifyBuffer_modifyBuffer,empty,emitSegments,
    List.foldlM_nil,Option.pure_def,GenOutcome.incomplete,List.length_nil,Nat.zero_lt_one,
    decide_true,Bool.or_true,Bool.true_or,if_true]

theorem submitDeviceReadable_walked (unused : Unused q (i :: free))
    (fits : (i :: free).length ≤ q.numEntries) (buf : IOMemoryDescriptor)
    (completion : VirtioCompletion) (dma : DmaCalls) (others : Nat)
    (attached : dma.setMemoryDescriptor = .success)
    (gen : dma.genIOVMSegments.emit (q.numUnusedDescriptors - (others - 1)) = outcome)
    (some : outcome.segments ≠ []) :
    if outcome.incomplete buf then
      ∃ q' kept, submitDeviceReadable q buf completion dma others = .returned outcome.failure q' ∧
        Unused q' kept ∧ kept.Perm (i :: free) ∧ Agree (i :: free) q q'
    else ∃ chain, submitDeviceReadable q buf completion dma others = .next (i, chain) ∧
      chain.reservedDescriptorIndex = uint16Max ∧
      Building (readablePrepared q i buf completion) chain ((i :: free).drop outcome.segments.length)
        ((i :: free).take outcome.segments.length)
        (outcome.segments.map fun segment => (segment,false)) := by
  have bound : i < 32768 := unused.small i List.mem_cons_self
  have index : ¬(i : Int) < 0 := by omega
  have room := dma.genIOVMSegments.bounded (q.numUnusedDescriptors - (others - 1))
  have count := unused.count
  rw [gen] at room
  obtain ⟨chain,emitted,building,clear⟩ :=
    emitSegments_spec (building_readable unused buf completion) outcome.segments (by omega)
  have linked : chain.reservedDescriptorIndex = uint16Max := clear (Or.inr some)
  simp only [submitDeviceReadable,reserveNewDescriptor_cons unused,if_neg index,Int.toNat_natCast,
    if_neg (not_not.mpr attached),VirtioVirtqueue.modifyBuffer_modifyBuffer,gen]
  have same : emitSegments ⟨(reserved q i).modifyBuffer i fun b =>
      { b with completion := completion, dmaCmdUsed := true, dmaCmd := Option.some buf },
      uint16 i,uint16Max,false⟩ outcome.segments = Option.some chain := emitted
  rw [same]
  cases complete : outcome.incomplete buf with
  | false => exact ⟨chain,by simp [uint16_cast i (by omega)],linked,by simpa using building⟩
  | true =>
    simp only [↓reduceIte]
    have taken : ([] ++ (i :: free).take outcome.segments.length).length ≤
        (readablePrepared q i buf completion).numEntries := by
      exact Nat.le_trans (List.length_take_le' _ (i :: free)) fits
    obtain ⟨q',released,final,agree⟩ := building.rolledBack linked neutral_skip
      (fun b => { b with dmaCmd := none, dmaCmdUsed := false }) (fun _ => rfl) taken
    have begins : chainStart ([] ++ (i :: free).take outcome.segments.length) = i := by
      obtain ⟨segment,segments,segmentsEq⟩ := List.exists_cons_of_ne_nil some
      rw [segmentsEq]
      rfl
    rw [begins] at released
    refine ⟨q',_,rollback_eq released,final,?_,?_⟩
    · simpa using ((List.reverse_perm _).append_right _).trans
        (.of_eq (List.take_append_drop outcome.segments.length (i :: free)))
    · refine (agree_of_reserved q _ List.mem_cons_self).trans (agree.mono ?_)
      exact List.cons_subset.mpr ⟨List.mem_cons_self,List.take_subset _ _⟩

theorem submitDeviceReadable_spec (unused : Unused q (i :: free))
    (fits : (i :: free).length ≤ q.numEntries) (buf : IOMemoryDescriptor)
    (completion : VirtioCompletion) (dma : DmaCalls) (others : Nat)
    (linked : dma.setMemoryDescriptor = .success →
      (dma.genIOVMSegments.emit (q.numUnusedDescriptors - (others - 1))).segments = [] → free = []) :
    ReadableOutcome q buf completion
      (dma.genIOVMSegments.emit (q.numUnusedDescriptors - (others - 1))).segments i free
      (submitDeviceReadable q buf completion dma others) := by
  by_cases attached : dma.setMemoryDescriptor = .success
  · by_cases empty :
        (dma.genIOVMSegments.emit (q.numUnusedDescriptors - (others - 1))).segments = []
    · obtain rfl := linked attached empty
      obtain ⟨result,f,failed,kept,exit⟩ := submitDeviceReadable_unlinked unused buf completion dma
        others attached empty
      obtain ⟨q',released,final,agree⟩ := rollback_lone neutral_skip unused f kept fits
      rw [exit,rollback_eq released]
      exact ⟨failed,[i],final,.refl _,agree⟩
    · have walked := submitDeviceReadable_walked unused fits buf completion dma others attached rfl
        empty
      split at walked
      · obtain ⟨q',kept,exit,final,perm,agree⟩ := walked
        rw [exit]
        exact ⟨GenOutcome.failure_ne _,kept,final,perm,agree⟩
      · obtain ⟨chain,exit,clear,building⟩ := walked
        rw [exit]
        exact ⟨rfl,empty,clear,building⟩
  · obtain ⟨q',exit,final,agree⟩ := submitDeviceReadable_unattached unused buf completion dma others
      attached
    rw [exit]
    exact ⟨attached,i :: free,final,.refl _,agree⟩

theorem Grown.modify (grown : Grown base queue descs entries) (apart : j ∉ descs)
    (g : VirtioBuffer → VirtioBuffer)
    (commutes : ∀ b link, g { b with nextDesc := link } = { g b with nextDesc := link })
    (kept : ∀ b, (g b).nextDesc = b.nextDesc) :
    Grown (base.modifyBuffer j g) (queue.modifyBuffer j g) descs entries where
  listed := grown.listed_modify j g kept
  encodes := grown.encodes
  agree := by
    have agree := grown.agree
    refine ⟨agree.numEntries,agree.availableRing,agree.usedRing,agree.usedRingLastHeadIndex,
      agree.interruptsRequested,agree.indirectDescriptors,fun i outside => ?_,agree.table⟩
    by_cases same : i = j
    · subst i; simp [agree.buffers j apart]
    · simp [same,agree.buffers i outside]
  fields i := by
    by_cases same : i = j
    · subst i
      have unchanged := grown.fields j
      simp only [VirtioVirtqueue.modifyBuffer_same,kept]
      rw [← commutes,unchanged]
    · simpa [same] using grown.fields i

def attachWritable (unset : Bool) (completion : VirtioCompletion) (buf : IOMemoryDescriptor)
    (b : VirtioBuffer) : VirtioBuffer :=
  { b with
    completion := if unset then completion else b.completion
    dmaCmdUsed := true
    dmaCmd := some buf }

theorem building_writable (building : Building base chain (j :: rest) descs entries)
    (clear : chain.reservedDescriptorIndex = uint16Max) (unset : Bool)
    (completion : VirtioCompletion) (buf : IOMemoryDescriptor) :
    Building (base.modifyBuffer j (attachWritable unset completion buf))
      ⟨(reserved chain.queue j).modifyBuffer j (attachWritable unset completion buf),uint16 j,
        chain.currentLastDescriptorIndex,true⟩ (j :: rest) descs entries := by
  have bound : j < 32768 := building.small j (by simp)
  have apart : j ∉ descs := fun member =>
    (List.nodup_append.mp building.nodup).2.2 j member j List.mem_cons_self rfl
  have unused := building.unused clear
  refine ⟨.reserved (uint16_cast j (by omega)) bound ?_,?_,building.last,building.nodup,
    building.small⟩
  · exact unused.reserve.modifyBuffer _ fun _ => rfl
  · exact (building.grown.congr (agree_reserved [] _ j)).modify apart _ (fun _ _ => rfl)
      (fun _ => rfl)

/-- A rollback over the readable part of a chain whose writable part never got linked:
the descriptor reserved for it is not on the chain and stays lost. -/
theorem Building.rolledBack_unlinked (building : Building base chain (j :: rest) descs entries)
    (clear : chain.reservedDescriptorIndex = uint16Max) (f)
    (kept : ∀ b, (f b).nextDesc = b.nextDesc) (fits : descs.length ≤ base.numEntries) :
    ∃ q', releaseChain clearDma chain.queue.numEntries (chainStart descs)
        ((reserved chain.queue j).modifyBuffer j f) = some q' ∧
      Unused q' (descs.reverse ++ rest) ∧ Agree (descs ++ j :: rest) base q' := by
  have unused := (building.unused clear).reserve.modifyBuffer (i := j) f kept
  have listed : Listed ((reserved chain.queue j).modifyBuffer j f).nextDesc (chainStart descs)
      descs := by
    rw [nextDesc_of_reserved chain.queue j f kept]
    exact building.grown.listed
  have nodup : (descs ++ rest).Nodup :=
    building.nodup.sublist (List.Sublist.append_left (List.sublist_cons_self j rest) descs)
  obtain ⟨q',released,final,agree⟩ := rollback_spec neutral_clearDma unused listed nodup
    (fun i member => building.small i (List.mem_append_left _ member))
    (by simpa [reserved,building.grown.agree.numEntries] using fits)
  refine ⟨q',released,final,?_⟩
  exact ((building.grown.agree.mono (by simp)).trans
    (agree_of_reserved chain.queue f (by simp))).trans (agree.mono (by simp))

/-- Both failing exits of a writable half that has linked nothing. Without a readable
part the loop starts at the reserved descriptor, so nothing else may be unused. -/
theorem Building.rolledBack_unemitted (building : Building base chain (j :: rest) descs entries)
    (clear : chain.reservedDescriptorIndex = uint16Max) (alone : descs = [] → rest = []) (f)
    (kept : ∀ b, (f b).nextDesc = b.nextDesc) (fits : (descs ++ j :: rest).length ≤ base.numEntries) :
    ∃ q' kept lost, releaseChain clearDma chain.queue.numEntries (chainStart (descs ++ [j]))
        ((reserved chain.queue j).modifyBuffer j f) = some q' ∧ Unused q' kept ∧
      (kept ++ lost).Perm (descs ++ j :: rest) ∧ Agree (descs ++ j :: rest) base q' := by
  have size : chain.queue.numEntries = base.numEntries := building.grown.agree.numEntries
  cases descs with
  | nil =>
    obtain rfl := alone rfl
    obtain ⟨q',released,final,agree⟩ := rollback_lone neutral_clearDma (building.unused clear) f kept
      (by rw [size]; exact fits)
    exact ⟨q',[j],[],released,final,.refl _,(building.grown.agree.mono (by simp)).trans agree⟩
  | cons i descs =>
    obtain ⟨q',released,final,agree⟩ := building.rolledBack_unlinked clear f kept
      (Nat.le_trans (by simp) fits)
    refine ⟨q',_,[j],released,final,?_,agree⟩
    have reordered : ((i :: descs).reverse ++ rest ++ [j]).Perm ((i :: descs) ++ (rest ++ [j])) := by
      rw [List.append_assoc]
      exact (List.reverse_perm _).append_right _
    exact reordered.trans ((List.perm_append_singleton j rest).append_left _)

def WritableOutcome (base : VirtioVirtqueue) (buf : IOMemoryDescriptor)
    (completion : VirtioCompletion) (segments : List Segment64) (descs : List Nat)
    (entries : List Entry) (j : Nat) (rest : List Nat) : Phase (Nat × VringDescChain) → Prop
  | .next (first, chain) => segments ≠ [] ∧ chainStart (descs ++ [j]) = first ∧
      chain.reservedDescriptorIndex = uint16Max ∧
      Building (base.modifyBuffer j (attachWritable descs.isEmpty completion buf)) chain
        ((j :: rest).drop segments.length) (descs ++ (j :: rest).take segments.length)
        (entries ++ segments.map fun segment => (segment,true))
  | .returned result q' => result ≠ .success ∧
      ∃ kept lost, Unused q' kept ∧ (kept ++ lost).Perm (descs ++ j :: rest) ∧
        Agree (descs ++ j :: rest) base q'
  | .stuck => False

/-- The completion is stored only when no readable half has set the first descriptor. -/
theorem attach_composed (queue : VirtioVirtqueue) (unset : Bool) (completion : VirtioCompletion)
    (j : Nat) :
    (if unset then queue.modifyBuffer j (fun b => { b with completion := completion }) else
        queue).modifyBuffer j (fun b => { b with dmaCmdUsed := true }) =
      queue.modifyBuffer j fun b =>
        { b with completion := if unset then completion else b.completion, dmaCmdUsed := true } := by
  cases unset <;> simp [VirtioVirtqueue.modifyBuffer]

/-- `first_descriptor_index` is unset exactly if there is no readable part. -/
theorem Building.first_unset (building : Building base chain (j :: rest) descs entries)
    (first : descs.head?.getD uint16Max = firstDescriptorIndex) :
    firstDescriptorIndex = uint16Max ↔ descs.isEmpty = true := by
  cases descs with
  | nil => simp [← first]
  | cons i descs =>
    have := building.small i (by simp)
    simp only [List.head?_cons,Option.getD_some] at first
    simp only [← first,uint16Max,List.isEmpty_cons,Bool.false_eq_true,iff_false]
    omega

/-- Whichever half has set it, it is the start of the chain. -/
theorem Building.first_start (building : Building base chain (j :: rest) descs entries)
    (first : descs.head?.getD uint16Max = firstDescriptorIndex) :
    ∃ head : Nat, head < 32768 ∧ chainStart (descs ++ [j]) = head ∧
      (if firstDescriptorIndex = uint16Max then uint16 j else firstDescriptorIndex) = head := by
  have unset := building.first_unset first
  have bound : j < 32768 := building.small j (by simp)
  cases descs with
  | nil => exact ⟨j,bound,rfl,by simp [unset,uint16_cast j (by omega)]⟩
  | cons i descs => exact ⟨i,building.small i (by simp),rfl,by simpa [unset] using first.symm⟩

/-- The failing exit of a writable half that has linked some of its segments gives back
both parts of the chain. -/
theorem Building.rolledBack_emitted
    (building : Building (base.modifyBuffer j g) chain ((j :: rest).drop count)
      (descs ++ (j :: rest).take count) entries)
    (clear : chain.reservedDescriptorIndex = uint16Max) (some : count ≠ 0) (f)
    (kept : ∀ b, (f b).nextDesc = b.nextDesc) (fits : (descs ++ j :: rest).length ≤ base.numEntries) :
    ∃ q' kept, releaseChain clearDma chain.queue.numEntries (chainStart (descs ++ [j]))
        (chain.queue.modifyBuffer j f) = Option.some q' ∧ Unused q' kept ∧
      kept.Perm (descs ++ j :: rest) ∧ Agree (descs ++ j :: rest) base q' := by
  obtain ⟨k,rfl⟩ := Nat.exists_eq_succ_of_ne_zero some
  have taken : (descs ++ (j :: rest).take (k + 1)).length ≤ (base.modifyBuffer j g).numEntries := by
    refine Nat.le_trans ?_ fits
    simp only [List.length_append]
    have := List.length_take_le' (k + 1) (j :: rest)
    omega
  have begins : chainStart (descs ++ (j :: rest).take (k + 1)) = chainStart (descs ++ [j]) := by
    cases descs <;> rfl
  obtain ⟨q',released,final,agree⟩ := building.rolledBack clear neutral_clearDma f kept taken
  rw [begins] at released
  refine ⟨q',_,released,final,?_,?_⟩
  · refine ((List.reverse_perm _).append_right _).trans (.of_eq ?_)
    rw [List.append_assoc,List.take_append_drop]
  · refine (agree_modifyBuffer base _ (by simp)).trans (agree.mono ?_)
    intro i member
    rcases List.mem_cons.mp member with rfl | member
    · simp
    · rcases List.mem_append.mp member with member | member
      · exact List.mem_append_left _ member
      · exact List.mem_append_right _ (List.mem_of_mem_take member)

theorem submitDeviceWritable_unlinked (building : Building base chain (j :: rest) descs entries)
    (clear : chain.reservedDescriptorIndex = uint16Max)
    (first : descs.head?.getD uint16Max = firstDescriptorIndex) (buf : IOMemoryDescriptor)
    (completion : VirtioCompletion) (dma : DmaCalls)
    (empty : dma.setMemoryDescriptor ≠ .success ∨
      (dma.genIOVMSegments.emit chain.queue.numUnusedDescriptors).segments = []) :
    ∃ result f, result ≠ .success ∧ (∀ b : VirtioBuffer, (f b).nextDesc = b.nextDesc) ∧
      submitDeviceWritable firstDescriptorIndex chain buf completion dma =
        rollback clearDma result (chainStart (descs ++ [j]))
          ((reserved chain.queue j).modifyBuffer j f) := by
  have index : ¬(j : Int) < 0 := by omega
  have unset := building.first_unset first
  obtain ⟨head,small,start,headEq⟩ := building.first_start first
  simp only [submitDeviceWritable,reserveNewDescriptor_cons (building.unused clear),if_neg index,
    Int.toNat_natCast,headEq,int16_cast head small,← start]
  simp only [unset,attach_composed]
  by_cases attached : dma.setMemoryDescriptor = .success
  · have empty := empty.resolve_left (not_not.mpr attached)
    refine ⟨_,fun b => { attachWritable descs.isEmpty completion buf b with
      dmaCmd := none, dmaCmdUsed := false },GenOutcome.failure_ne
        (dma.genIOVMSegments.emit chain.queue.numUnusedDescriptors),fun _ => rfl,?_⟩
    simp only [if_neg (not_not.mpr attached),VirtioVirtqueue.modifyBuffer_modifyBuffer,empty,
      emitSegments,List.foldlM_nil,Option.pure_def,GenOutcome.incomplete,List.length_nil,
      Nat.zero_lt_one,decide_true,Bool.or_true,Bool.true_or,if_true]
    rfl
  · rw [if_pos attached]
    exact ⟨_,fun b => { b with
      completion := if descs.isEmpty then completion else b.completion, dmaCmdUsed := true },
      attached,fun _ => rfl,rfl⟩

theorem submitDeviceWritable_walked (building : Building base chain (j :: rest) descs entries)
    (clear : chain.reservedDescriptorIndex = uint16Max)
    (fits : (descs ++ j :: rest).length ≤ base.numEntries)
    (first : descs.head?.getD uint16Max = firstDescriptorIndex) (buf : IOMemoryDescriptor)
    (completion : VirtioCompletion) (dma : DmaCalls)
    (attached : dma.setMemoryDescriptor = .success)
    (gen : dma.genIOVMSegments.emit chain.queue.numUnusedDescriptors = outcome)
    (some : outcome.segments ≠ []) :
    if outcome.incomplete buf then
      ∃ q' kept, submitDeviceWritable firstDescriptorIndex chain buf completion dma =
          .returned outcome.failure q' ∧
        Unused q' kept ∧ kept.Perm (descs ++ j :: rest) ∧ Agree (descs ++ j :: rest) base q'
    else ∃ head chain', submitDeviceWritable firstDescriptorIndex chain buf completion dma =
        .next (head, chain') ∧ chainStart (descs ++ [j]) = head ∧
      chain'.reservedDescriptorIndex = uint16Max ∧
      Building (base.modifyBuffer j (attachWritable descs.isEmpty completion buf)) chain'
        ((j :: rest).drop outcome.segments.length)
        (descs ++ (j :: rest).take outcome.segments.length)
        (entries ++ outcome.segments.map fun segment => (segment,true)) := by
  have index : ¬(j : Int) < 0 := by omega
  have unused := building.unused clear
  have room := dma.genIOVMSegments.bounded chain.queue.numUnusedDescriptors
  have count := unused.count
  have unset := building.first_unset first
  obtain ⟨head,small,start,headEq⟩ := building.first_start first
  rw [gen] at room
  obtain ⟨chain',emitted,building',clear'⟩ :=
    emitSegments_spec (building_writable building clear descs.isEmpty completion buf)
      outcome.segments (by omega)
  have linked : chain'.reservedDescriptorIndex = uint16Max := clear' (Or.inr some)
  simp only [submitDeviceWritable,reserveNewDescriptor_cons unused,if_neg index,Int.toNat_natCast,
    headEq,int16_cast head small,← start]
  simp only [unset,attach_composed]
  simp only [if_neg (not_not.mpr attached),VirtioVirtqueue.modifyBuffer_modifyBuffer,gen]
  have same : emitSegments ⟨(reserved chain.queue j).modifyBuffer j fun b =>
      { b with
        completion := if descs.isEmpty = true then completion else b.completion
        dmaCmdUsed := true
        dmaCmd := Option.some buf },
      uint16 j,chain.currentLastDescriptorIndex,true⟩ outcome.segments = Option.some chain' := emitted
  rw [same]
  cases complete : outcome.incomplete buf with
  | false => exact ⟨head,chain',rfl,start,linked,building'⟩
  | true =>
    simp only [↓reduceIte]
    obtain ⟨q',kept,released,final,perm,agree⟩ := building'.rolledBack_emitted linked
      (by simpa using some) (fun b => { b with dmaCmd := none, dmaCmdUsed := false }) (fun _ => rfl)
      fits
    exact ⟨q',kept,rollback_eq released,final,perm,agree⟩

theorem submitDeviceWritable_spec (building : Building base chain (j :: rest) descs entries)
    (clear : chain.reservedDescriptorIndex = uint16Max)
    (fits : (descs ++ j :: rest).length ≤ base.numEntries)
    (first : descs.head?.getD uint16Max = firstDescriptorIndex) (buf : IOMemoryDescriptor)
    (completion : VirtioCompletion) (dma : DmaCalls)
    (linked : descs = [] → dma.setMemoryDescriptor ≠ .success ∨
      (dma.genIOVMSegments.emit chain.queue.numUnusedDescriptors).segments = [] → rest = []) :
    WritableOutcome base buf completion
      (dma.genIOVMSegments.emit chain.queue.numUnusedDescriptors).segments descs entries j rest
      (submitDeviceWritable firstDescriptorIndex chain buf completion dma) := by
  by_cases empty : dma.setMemoryDescriptor ≠ .success ∨
      (dma.genIOVMSegments.emit chain.queue.numUnusedDescriptors).segments = []
  · obtain ⟨result,f,failed,kept,exit⟩ := submitDeviceWritable_unlinked building clear first buf
      completion dma empty
    obtain ⟨q',kept,lost,released,final,perm,agree⟩ := building.rolledBack_unemitted clear
      (fun alone => linked alone empty) f kept fits
    rw [exit,rollback_eq released]
    exact ⟨failed,kept,lost,final,perm,agree⟩
  · push Not at empty
    have walked := submitDeviceWritable_walked building clear fits first buf completion dma empty.1
      rfl empty.2
    split at walked
    · obtain ⟨q',kept,exit,final,perm,agree⟩ := walked
      rw [exit]
      exact ⟨GenOutcome.failure_ne _,kept,[],final,by simpa using perm,agree⟩
    · obtain ⟨head,chain',exit,start,clear',building'⟩ := walked
      rw [exit]
      exact ⟨empty.2,start,clear',building'⟩

/-- A finished chain: it uses a prefix of the unused list, is linked both ways, describes
the entries, and its first descriptor carries the completion. Nothing else changed. -/
structure Built (q q' : VirtioVirtqueue) (completion : VirtioCompletion) (entries : List Entry)
    (head : Nat) (descs rest : List Nat) : Prop where
  starts : descs.head? = some head
  unused : Unused q' rest
  listed : Listed q'.nextDesc head descs
  encodes : Encodes q'.descriptorTable descs entries
  completion : q'.completion head = completion
  agree : Agree descs q q'

def directEntries (q : VirtioVirtqueue) (call : SubmitCall) : List Entry :=
  (readableSegments q call).map (fun segment => (segment,false)) ++
    (writableSegments q call).map (fun segment => (segment,true))

def DirectOutcome (q : VirtioVirtqueue) (call : SubmitCall) (free : List Nat) :
    Phase (Nat × VirtioVirtqueue) → Prop
  | .next (head, q') => ∃ descs rest, free = descs ++ rest ∧
      Built q q' call.completion (directEntries q call) head descs rest
  | .returned result q' => result ≠ .success ∧
      ∃ kept lost, Unused q' kept ∧ (kept ++ lost).Perm free ∧ Agree free q q'
  | .stuck => False

theorem Grown.completion (grown : Grown base queue descs entries) (i : Nat) :
    queue.completion i = base.completion i := by
  have same := congrArg VirtioBuffer.completion (grown.fields i)
  exact same

/-- The last step of either half turns a chain under construction into a finished one. -/
theorem Building.built (building : Building base chain pending descs entries)
    (clear : chain.reservedDescriptorIndex = uint16Max) (starts : descs.head? = some head)
    (stored : base.completion head = completion) (agree : Agree descs q base) :
    Built q chain.queue completion entries head descs pending where
  starts := starts
  unused := building.unused clear
  listed := by
    have start : chainStart descs = head := by simp [chainStart,starts]
    exact start ▸ building.grown.listed
  encodes := building.grown.encodes
  completion := (building.grown.completion head).trans stored
  agree := agree.trans building.grown.agree

theorem directOutcome_refused (unused : Unused q free) (failed : result ≠ .success) :
    DirectOutcome q call free (.returned result q) :=
  ⟨failed,free,[],unused,by simp,Agree.refl free q⟩

/-- The writable half, whatever came before it, ends the construction. -/
theorem WritableOutcome.finish (outcome : WritableOutcome base buf call.completion
      (writableSegments q call) descs entries j rest phase)
    (agree : Agree descs q base)
    (stored : ∀ head, descs.head? = some head → base.completion head = call.completion)
    (fresh : j ∉ descs)
    (emitted : directEntries q call =
      entries ++ (writableSegments q call).map fun segment => (segment,true)) :
    DirectOutcome q call (descs ++ j :: rest)
      (phase.bind fun (firstDescriptorIndex, chain) =>
        .next (firstDescriptorIndex, chain.queue)) := by
  cases phase with
  | stuck => exact outcome.elim
  | returned result q' =>
    obtain ⟨failed,kept,lost,unused,perm,after⟩ := outcome
    exact ⟨failed,kept,lost,unused,perm,(agree.mono (by simp)).trans after⟩
  | next value =>
    obtain ⟨head,chain⟩ := value
    obtain ⟨some,start,clear,building⟩ := outcome
    obtain ⟨segment,segments,segmentsEq⟩ := List.exists_cons_of_ne_nil some
    refine ⟨descs ++ (j :: rest).take (writableSegments q call).length,
      (j :: rest).drop (writableSegments q call).length,?_,?_⟩
    · rw [List.append_assoc,List.take_append_drop]
    rw [emitted]
    have added : j ∈ descs ++ (j :: rest).take (writableSegments q call).length := by
      simp [segmentsEq]
    refine building.built clear ?_ ?_ ?_
    · cases descs with
      | nil => simpa [segmentsEq] using Int.ofNat.inj start
      | cons i descs => simpa using Int.ofNat.inj start
    · cases descs with
      | nil =>
        obtain rfl : j = head := Int.ofNat.inj start
        simp [VirtioVirtqueue.completion,attachWritable]
      | cons i descs =>
        obtain rfl : i = head := Int.ofNat.inj start
        have different : i ≠ j := fun same => fresh (by simp [same])
        simpa [VirtioVirtqueue.completion,different] using stored i rfl
    · exact (agree.mono (by simp)).trans (agree_modifyBuffer base _ added)

/-- A chain under construction that has no descriptor yet. -/
theorem building_nothing (unused : Unused q free) :
    Building q ⟨q,uint16Max,uint16Max,false⟩ free [] [] :=
  ⟨.unreserved rfl unused,⟨by simp [chainStart],trivial,Agree.refl _ _,fun _ => rfl⟩,rfl,
    by simpa using unused.nodup,by simpa using unused.small⟩

theorem buildDirectChain_writable (unused : Unused q (j :: rest))
    (fits : (j :: rest).length ≤ q.numEntries) (readable : call.readableBuffer = none)
    (writable : call.writableBuffer = some buf) (linked : ¬HeadUnlinked q call) :
    DirectOutcome q call (j :: rest)
      ((submitDeviceWritable uint16Max ⟨q,uint16Max,uint16Max,false⟩ buf call.completion
        call.writable).bind fun (firstDescriptorIndex, chain) =>
          .next (firstDescriptorIndex, chain.queue)) := by
  have none : readableSegments q call = [] := by simp [readableSegments,readable]
  have emitted : writableSegments q call =
      (call.writable.genIOVMSegments.emit q.numUnusedDescriptors).segments := by
    simp [writableSegments,writable,none]
  have building := building_nothing unused
  have alone : call.writable.setMemoryDescriptor ≠ .success ∨
      (call.writable.genIOVMSegments.emit q.numUnusedDescriptors).segments = [] → rest = [] := by
    intro failed
    by_contra others
    apply linked
    have count := unused.count
    have positive := List.length_pos_iff.mpr others
    simp only [HeadUnlinked,readable,writable,emitted]
    exact ⟨by rw [count,List.length_cons]; omega,failed⟩
  have outcome : WritableOutcome q buf call.completion _ [] [] j rest (submitDeviceWritable uint16Max
      ⟨q,uint16Max,uint16Max,false⟩ buf call.completion call.writable) :=
    submitDeviceWritable_spec building rfl fits rfl buf call.completion call.writable (fun _ => alone)
  rw [← emitted] at outcome
  exact outcome.finish (Agree.refl _ _) (by simp) (by simp) (by simp [directEntries,none])

/-- A readable buffer for which nothing is emitted has got the last unused descriptor. -/
theorem readable_alone (unused : Unused q (i :: free)) (readable : call.readableBuffer = some buf)
    (linked : ¬HeadUnlinked q call) (attached : call.readable.setMemoryDescriptor = .success)
    (none : (call.readable.genIOVMSegments.emit
      (q.numUnusedDescriptors - (call.minDescsRequired - 1))).segments = []) : free = [] := by
  by_contra others
  apply linked
  have count := unused.count
  have positive := List.length_pos_iff.mpr others
  simp only [HeadUnlinked,readable,readableSegments]
  exact ⟨by rw [count,List.length_cons]; omega,attached,none⟩

/-- The readable half leaves a descriptor for the writable one. -/
theorem readable_leaves (unused : Unused q (i :: free)) (readable : call.readableBuffer = some buf)
    (writable : call.writableBuffer = some writableBuf)
    (enough : call.minDescsRequired ≤ q.numUnusedDescriptors) :
    ∃ j rest, (i :: free).drop (readableSegments q call).length = j :: rest := by
  have both : call.minDescsRequired = 2 := by
    simp [SubmitCall.minDescsRequired,readable,writable]
  have limited := call.readable.genIOVMSegments.bounded
    (q.numUnusedDescriptors - (call.minDescsRequired - 1))
  have left : (readableSegments q call).length < (i :: free).length := by
    rw [← unused.count]
    simp only [readableSegments,readable]
    omega
  exact List.exists_cons_of_ne_nil (by simpa [List.drop_eq_nil_iff] using left)

/-- The writable half walks its buffer at the limit that the readable one has left. -/
theorem writableSegments_eq (unused : Unused q free)
    (after : Unused queue (free.drop (readableSegments q call).length))
    (writable : call.writableBuffer = some buf) : writableSegments q call =
      (call.writable.genIOVMSegments.emit queue.numUnusedDescriptors).segments := by
  simp [writableSegments,writable,after.count,unused.count]

/-- A request with a readable buffer continues with the writable half, if it has one. -/
theorem buildDirectChain_readable (unused : Unused q (i :: free))
    (fits : (i :: free).length ≤ q.numEntries) (readable : call.readableBuffer = some buf)
    (enough : call.minDescsRequired ≤ q.numUnusedDescriptors) (linked : ¬HeadUnlinked q call) :
    DirectOutcome q call (i :: free)
      ((submitDeviceReadable q buf call.completion call.readable call.minDescsRequired).bind
        fun (firstDescriptorIndex, chain) =>
        (match call.writableBuffer with
          | some buf =>
            submitDeviceWritable firstDescriptorIndex chain buf call.completion call.writable
          | none => .next (firstDescriptorIndex, chain)).bind
        fun (firstDescriptorIndex, chain) => .next (firstDescriptorIndex, chain.queue)) := by
  have count := unused.count
  have emitted : readableSegments q call = (call.readable.genIOVMSegments.emit
      (q.numUnusedDescriptors - (call.minDescsRequired - 1))).segments := by
    simp [readableSegments,readable]
  have outcome := submitDeviceReadable_spec unused fits buf call.completion call.readable
    call.minDescsRequired (readable_alone unused readable linked)
  rw [← emitted] at outcome
  cases result : submitDeviceReadable q buf call.completion call.readable call.minDescsRequired with
  | stuck => rw [result] at outcome; exact outcome.elim
  | returned code q' =>
    rw [result] at outcome
    obtain ⟨failed,kept,unused',perm,agree⟩ := outcome
    exact ⟨failed,kept,[],unused',by simpa using perm,agree⟩
  | next value =>
    obtain ⟨first,chain⟩ := value
    rw [result] at outcome
    obtain ⟨rfl,some,clear,building⟩ := outcome
    obtain ⟨segment,segments,segmentsEq⟩ := List.exists_cons_of_ne_nil some
    have agree : Agree ((first :: free).take (readableSegments q call).length) q
        (readablePrepared q first buf call.completion) :=
      agree_of_reserved q _ (by simp [segmentsEq])
    have stored : (readablePrepared q first buf call.completion).completion first =
        call.completion := by
      simp [readablePrepared,VirtioVirtqueue.completion]
    have starts : ((first :: free).take (readableSegments q call).length).head? = Option.some first := by
      simp [segmentsEq]
    have splits := List.take_append_drop (readableSegments q call).length (first :: free)
    rw [Phase.bind_next]
    cases writable : call.writableBuffer with
    | none =>
      have entries : directEntries q call =
          (readableSegments q call).map fun segment => (segment,false) := by
        simp [directEntries,writableSegments,writable]
      refine ⟨_,_,splits.symm,?_⟩
      rw [entries]
      exact building.built clear starts stored agree
    | some writableBuf =>
      obtain ⟨j,rest,pending⟩ := readable_leaves unused readable writable enough
      have emittedWritable := writableSegments_eq unused (building.unused clear) writable
      rw [pending] at building splits
      have nonempty : (first :: free).take (readableSegments q call).length ≠ [] := by
        simp [segmentsEq]
      have outcome := submitDeviceWritable_spec building clear (by rw [splits]; exact fits) rfl
        writableBuf call.completion call.writable (fun empty => absurd empty nonempty)
      rw [← emittedWritable,starts,Option.getD_some] at outcome
      have fresh : j ∉ (first :: free).take (readableSegments q call).length := fun member =>
        (List.nodup_append.mp building.nodup).2.2 j member j List.mem_cons_self rfl
      have final := outcome.finish agree
        (fun head same => by
          obtain rfl : first = head := Option.some.inj (starts.symm.trans same)
          exact stored) fresh rfl
      rwa [splits] at final

/-- Every exit of the construction: a finished chain that describes the emitted segments,
or an error with the unused list rebuilt, at most short of one unlinked descriptor. It
never uses descriptor -1 and its rollback loops end. -/
theorem buildDirectChain_spec (unused : Unused q free) (fits : free.length ≤ q.numEntries)
    (linked : ¬HeadUnlinked q call) : DirectOutcome q call free (buildDirectChain q call) := by
  unfold buildDirectChain
  split
  · exact directOutcome_refused unused (by simp)
  split
  · exact directOutcome_refused unused (by simp)
  split
  · exact directOutcome_refused unused (by simp)
  rename_i _ required enough
  obtain ⟨i,rest,rfl⟩ := unused.exists_cons (by omega)
  cases readable : call.readableBuffer with
  | some buf => exact buildDirectChain_readable unused fits readable (by omega) linked
  | none =>
    cases writable : call.writableBuffer with
    | some buf => exact buildDirectChain_writable unused fits readable writable linked
    | none => simp [SubmitCall.minDescsRequired,readable,writable] at required

end VirtioOsx
