import VirtioOsx.PCIDeviceProbe

/-! What the walk along the capabilities visits, and what the checks of the virtio structures
say about the BARs that are to hold them. -/
namespace VirtioOsx

namespace IOPCIDevice

variable {dev : IOPCIDevice} {cap : VirtioPCICap}

theorem Ends.distinct (ends : dev.Ends length) : (dev.offsets (length + 1)).Nodup := by
  rw [offsets,List.Nodup,List.pairwise_map]
  refine List.pairwise_lt_range.imp_of_mem fun {i j} _ inside less same => ?_
  rw [List.mem_range] at inside
  -- the end would also be reached one period before
  have same : dev.offsetAt i = dev.offsetAt (i + (j - i)) := by
    rw [same,Nat.add_sub_cancel' less.le]
  have earlier := CycleWalk.iterate_periodic same (show i ≤ length + 1 - (j - i) by omega)
  rw [Nat.sub_add_cancel (by omega)] at earlier
  have ended : dev.offsetAt (length + 1) = 0 := ends.ended
  obtain ⟨k,position⟩ : ∃ k, length + 1 - (j - i) = k + 1 := ⟨length - (j - i),by omega⟩
  have valid := ends.valid k (by omega)
  rw [position] at earlier
  rw [offsetAt,← earlier] at valid
  rw [offsetAt] at ended
  rw [ended] at valid
  exact not_validOffset_zero valid

end IOPCIDevice

open IOPCIDevice

/-- The walk always comes to an end. It succeeds exactly for the lists that lead to zero over
valid offsets, and has then been at each capability once and in turn; otherwise it has not
been at an invalid offset, apart from the first. -/
theorem capabilities_walked (dev : IOPCIDevice) (present : dev.firstCapabilityOffset ≠ 0) :
    ∃ success count,
      (∀ (S : Type) (fn : UInt8 → UInt8 → S → S) (s : S), dev.iterateCapabilities fn s =
        some (success, (dev.offsets count).foldl
          (fun s offset => fn offset (dev.configRead8 offset) s) s)) ∧
      (success = true ↔ ∃ length, dev.Ends length) ∧
      (∀ length, dev.Ends length → count = length + 1 ∧ (dev.offsets count).Nodup) ∧
      (dev.offsets count).head? = some dev.firstCapabilityOffset ∧
      ∀ offset ∈ (dev.offsets count).tail, ValidOffset offset ∧ ∃ k, offset = dev.offsetAt k := by
  obtain ⟨success,count,⟨succeeds,counted,positive,valid⟩,iterated⟩ := iterateCapabilities_spec dev
  obtain ⟨further,rfl⟩ := Nat.exists_eq_add_of_lt (positive present)
  have listed : dev.offsets (0 + further + 1) = dev.firstCapabilityOffset ::
      (List.range further).map fun k => dev.offsetAt (k + 1) := by
    rw [offsets,Nat.zero_add,List.range_succ_eq_map,List.map_cons,List.map_map]
    rfl
  refine ⟨success,_,iterated,succeeds,?_,by rw [listed]; rfl,?_⟩
  · intro length ends
    have exactly := counted length ends
    exact ⟨exactly,exactly ▸ ends.distinct⟩
  · intro offset member
    rw [listed,List.tail_cons] at member
    obtain ⟨k,less,rfl⟩ := List.mem_map.mp member
    rw [List.mem_range] at less
    exact ⟨valid k (by omega),k + 1,rfl⟩

def loopedDevice : IOPCIDevice :=
  { legacyDevice with nextCapabilityOffset := fun offset => if offset = 0x40 then 0x48 else 0x40 }

theorem capabilities_walked_looped :
    loopedDevice.firstCapabilityOffset ≠ 0 ∧
    (∃ success count,
      loopedDevice.iterateCapabilities (fun _ _ visited => visited + 1) 0 = some (success, count) ∧
      success = false) ∧
    loopedDevice.iterateCapabilities (fun offset _ offsets => offsets ++ [offset]) [] =
      some (false, [0x40, 0x48]) := by
  have present : loopedDevice.firstCapabilityOffset ≠ 0 := by decide
  refine ⟨present,?_,by decide +kernel⟩
  obtain ⟨success,count,walked,succeeds,_⟩ := capabilities_walked loopedDevice present
  refine ⟨success,_,walked Nat _ _,Bool.eq_false_iff.mpr fun succeeded => ?_⟩
  obtain ⟨length,ends⟩ := succeeds.mp succeeded
  have stays : ∀ k, loopedDevice.offsetAt k = 0x40 ∨ loopedDevice.offsetAt k = 0x48 := by
    intro k
    induction k with
    | zero => exact .inl rfl
    | succ k ih =>
      rw [offsetAt,Function.iterate_succ_apply']
      rcases ih with here | there
      · rw [offsetAt] at here
        rw [here]
        exact .inr rfl
      · rw [offsetAt] at there
        rw [there]
        exact .inl rfl
  have ended := ends.ended
  rcases stays (length + 1) with here | there
  · rw [here] at ended
    cases ended
  · rw [there] at ended
    cases ended

namespace IOPCIDevice

def barRegister (dev : IOPCIDevice) (cap : VirtioPCICap) : UInt8 := dev.registerForRangeIndex cap.bar

/-- The BAR is one of the device's and can be mapped as memory. -/
structure MemoryBar (dev : IOPCIDevice) (cap : VirtioPCICap) : Prop where
  index : cap.bar ≤ 5
  memory : dev.memoryRangeType (dev.barRegister cap) = .memory32 ∨
    dev.memoryRangeType (dev.barRegister cap) = .memory64

structure InsideBar (dev : IOPCIDevice) (cap : VirtioPCICap) : Prop where
  bar : dev.MemoryBar cap
  inside : ∃ length, dev.deviceMemoryLength (dev.barRegister cap) = some length ∧
    cap.barOffset.toNat + cap.barLength.toNat ≤ length

/-- The BAR is as long as the structure, but what follows the structure's offset is not. -/
structure Overhangs (dev : IOPCIDevice) (cap : VirtioPCICap) : Prop where
  bar : dev.MemoryBar cap
  outside : ∃ length, dev.deviceMemoryLength (dev.barRegister cap) = some length ∧
    cap.barLength.toNat ≤ length ∧ length < cap.barOffset.toNat + cap.barLength.toNat

theorem checkBarTypeAndLength_memory {dev : IOPCIDevice} (bar : dev.MemoryBar cap) :
    dev.checkBarTypeAndLength cap.bar cap.barLength = true ↔
      ∃ length, dev.deviceMemoryLength (dev.barRegister cap) = some length ∧
        cap.barLength.toNat ≤ length := by
  have type := bar.memory
  rw [checkBarTypeAndLength,if_neg (UInt8.not_lt.mpr bar.index)]
  rw [barRegister] at type ⊢
  rcases type with type | type
  all_goals
    dsimp only
    rw [type]
    dsimp only
    cases dev.deviceMemoryLength (dev.registerForRangeIndex cap.bar) with
    | none => simp
    | some length => simp

theorem checkBarTypeAndLength_iff (dev : IOPCIDevice) (cap : VirtioPCICap) :
    dev.checkBarTypeAndLength cap.bar cap.barLength = true ↔ dev.MemoryBar cap ∧
      ∃ length, dev.deviceMemoryLength (dev.barRegister cap) = some length ∧
        cap.barLength.toNat ≤ length := by
  constructor
  · intro passes
    have bar : dev.MemoryBar cap := by
      rw [checkBarTypeAndLength] at passes
      split at passes
      · cases passes
      rename_i index
      have index : cap.bar ≤ 5 := UInt8.not_lt.mp index
      dsimp only at passes
      split at passes
      · exact ⟨index,.inl ‹_›⟩
      · exact ⟨index,.inr ‹_›⟩
      · cases passes
      · cases passes
    exact ⟨bar,(checkBarTypeAndLength_memory bar).mp passes⟩
  · rintro ⟨bar,long⟩
    exact (checkBarTypeAndLength_memory bar).mpr long

/-- The check does not look at the offset, so that it is not enough by itself. -/
theorem checked_inside_iff (dev : IOPCIDevice) (cap : VirtioPCICap) (formed : Bool) :
    ((formed && dev.checkBarTypeAndLength cap.bar cap.barLength) = true → dev.InsideBar cap) ↔
      ¬(formed = true ∧ dev.Overhangs cap) := by
  rw [Bool.and_eq_true,checkBarTypeAndLength_iff]
  constructor
  · rintro inside ⟨wellFormed,bar,length,here,long,short⟩
    obtain ⟨_,length',here',fits⟩ := inside ⟨wellFormed,bar,length,here,long⟩
    obtain rfl := Option.some.inj (here.symm.trans here')
    omega
  · rintro apart ⟨wellFormed,bar,length,here,long⟩
    refine ⟨bar,length,here,?_⟩
    by_contra short
    exact apart ⟨wellFormed,bar,length,here,long,by omega⟩

def notifyOffMultiplier (dev : IOPCIDevice) (configOffset : UInt8) : UInt32 :=
  dev.configRead32 (configOffset + UInt8.ofNat VirtioPCICap.size)

theorem isPow2_or_zero (val : UInt32) :
    (val != 0 && !isPow2 val) = false ↔ val = 0 ∨ isPow2 val = true := by
  cases isPow2 val <;> simp

end IOPCIDevice

/-- An accepted structure is inside of its BAR exactly if its capability is not one whose offset
leaves less than its length of a BAR that is as long as that. The common configuration is
long enough for all of its fields. -/
theorem structures_inside_iff (dev : IOPCIDevice) (cap : VirtioPCICap) (configOffset : UInt8) :
    ((dev.setupCommonCFG cap = true →
        dev.InsideBar cap ∧ virtioPCICommonCfgSize ≤ cap.barLength.toNat) ↔
      ¬(cap.barOffset % 4 = 0 ∧ virtioPCICommonCfgSize ≤ cap.barLength.toNat ∧
        dev.Overhangs cap)) ∧
    ((dev.setupNotificationStructure cap configOffset = true → dev.InsideBar cap) ↔
      ¬((dev.notifyOffMultiplier configOffset = 0 ∨
          isPow2 (dev.notifyOffMultiplier configOffset) = true) ∧
        cap.barOffset % 2 = 0 ∧ 2 ≤ cap.barLength ∧ dev.Overhangs cap)) ∧
    ((dev.setupISRStatusStructure cap = true → dev.InsideBar cap) ↔
      ¬(1 ≤ cap.barLength ∧ dev.Overhangs cap)) ∧
    ((dev.setupDeviceSpecificStructure cap = true → dev.InsideBar cap) ↔
      ¬(cap.barOffset % 4 = 0 ∧ dev.Overhangs cap)) := by
  refine ⟨?_,?_,?_,?_⟩
  · have long : dev.setupCommonCFG cap = true → virtioPCICommonCfgSize ≤ cap.barLength.toNat := by
      intro accepted
      simp only [setupCommonCFG,Bool.and_eq_true,Bool.not_eq_true',decide_eq_false_iff_not,
        Nat.not_lt] at accepted
      exact accepted.1.2
    have both : (dev.setupCommonCFG cap = true →
        dev.InsideBar cap ∧ virtioPCICommonCfgSize ≤ cap.barLength.toNat) ↔
        (dev.setupCommonCFG cap = true → dev.InsideBar cap) :=
      ⟨fun all accepted => (all accepted).1,fun inside accepted => ⟨inside accepted,long accepted⟩⟩
    rw [both,setupCommonCFG,checked_inside_iff]
    simp only [Bool.and_eq_true,beq_iff_eq,Bool.not_eq_true',decide_eq_false_iff_not,Nat.not_lt,
      and_assoc]
  · rw [setupNotificationStructure,checked_inside_iff]
    simp only [Bool.and_eq_true,beq_iff_eq,isPow2_or_zero,Bool.not_eq_true',
      decide_eq_false_iff_not,UInt32.not_lt,and_assoc,notifyOffMultiplier]
  · rw [setupISRStatusStructure,checked_inside_iff]
    simp only [Bool.not_eq_true',decide_eq_false_iff_not,UInt32.not_lt]
  · rw [setupDeviceSpecificStructure,checked_inside_iff]
    simp only [beq_iff_eq]

def onePageDevice : IOPCIDevice :=
  { legacyDevice with
    memoryRangeType := fun _ => .memory32
    deviceMemoryLength := fun _ => some 4096 }

def behindPage : VirtioPCICap := ⟨9, 0, 16, 1, 0, 4096, 56⟩

theorem structures_accepted_outside :
    onePageDevice.setupCommonCFG behindPage = true ∧
    onePageDevice.setupNotificationStructure behindPage 0x40 = true ∧
    onePageDevice.setupISRStatusStructure behindPage = true ∧
    onePageDevice.setupDeviceSpecificStructure behindPage = true ∧
    ¬onePageDevice.InsideBar behindPage := by
  refine ⟨by decide,by decide,by decide,by decide,fun inside => ?_⟩
  obtain ⟨length,here,fits⟩ := inside.inside
  obtain rfl := Option.some.inj here
  exact absurd fits (by decide)

end VirtioOsx
