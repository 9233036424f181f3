import VirtioOsx.Lib.CycleWalk

/-! How the driver for modern PCI devices probes a device: it walks along the capability list,
checks the virtio structures it finds there, and looks for interrupt sources. -/
namespace VirtioOsx

structure VirtioPCICap where
  capVndr : UInt8
  capNext : UInt8
  capLen : UInt8
  cfgType : UInt8
  bar : UInt8
  barOffset : UInt32
  barLength : UInt32
  deriving DecidableEq, Repr

def VirtioPCICap.size : Nat := 16
def virtioPCICommonCfgSize : Nat := 56

inductive VirtioPCICapType where
  | commonCfg
  | notifyCfg
  | isrCfg
  | deviceCfg
  | pciCfg
  deriving DecidableEq, Repr

def VirtioPCICapType.ofCfgType (cfgType : UInt8) : Option VirtioPCICapType :=
  if cfgType = 1 then some .commonCfg
  else if cfgType = 2 then some .notifyCfg
  else if cfgType = 3 then some .isrCfg
  else if cfgType = 4 then some .deviceCfg
  else if cfgType = 5 then some .pciCfg
  else none

inductive PCIRangeType where
  | memory32
  | memory64
  | ioSpace
  | other
  deriving DecidableEq, Repr

structure PCIInterruptIndexRanges where
  irqPinStart : Int
  irqPinEnd : Int
  msiStart : Int
  msiEnd : Int
  deriving DecidableEq, Repr

/-- What the driver asks the device for. The two functions that lead along the capability list
and the three about ranges belong to a library of helpers. -/
structure IOPCIDevice where
  configRead8 : UInt8 → UInt8
  configRead32 : UInt8 → UInt32
  firstCapabilityOffset : UInt8
  nextCapabilityOffset : UInt8 → UInt8
  registerForRangeIndex : UInt8 → UInt8
  memoryRangeType : UInt8 → PCIRangeType
  deviceMemoryLength : UInt8 → Option Nat
  interruptRanges : PCIInterruptIndexRanges
  memoryEnable : Bool

namespace IOPCIDevice

def vendorSpecificCapability : UInt8 := 9

def setMemoryEnable (dev : IOPCIDevice) (enable : Bool) : Bool × IOPCIDevice :=
  (dev.memoryEnable, { dev with memoryEnable := enable })

/-- Twice the number of values that an offset has. -/
def capabilityFuel : Nat := 512

def endsIteration (offset : UInt8) : Bool := offset < 0x40 || offset % 4 != 0

/-- `fn` is called with the offset and the type of each capability. -/
def iterateCapabilities (dev : IOPCIDevice) (fn : UInt8 → UInt8 → S → S) (s : S) :
    Option (Bool × S) :=
  let offset := dev.firstCapabilityOffset
  if offset = 0 then some (false, s)
  else
    let visit := fun offset => fn offset (dev.configRead8 offset)
    (CycleWalk.walk dev.nextCapabilityOffset endsIteration visit capabilityFuel offset offset true
      (visit offset s)).map fun (offset, s) => (offset == 0, s)

def checkBarTypeAndLength (dev : IOPCIDevice) (barIndex : UInt8) (minLength : UInt32) : Bool :=
  if barIndex > 5 then false
  else
    let barReg := dev.registerForRangeIndex barIndex
    match dev.memoryRangeType barReg with
    | .memory32 | .memory64 => match dev.deviceMemoryLength barReg with
      | none => false
      | some length => !(length < minLength.toNat)
    | .ioSpace | .other => false

def setupCommonCFG (dev : IOPCIDevice) (cap : VirtioPCICap) : Bool :=
  cap.barOffset % 4 == 0 && !(cap.barLength.toNat < virtioPCICommonCfgSize) &&
    dev.checkBarTypeAndLength cap.bar cap.barLength

def isPow2 (val : UInt32) : Bool := val != 0 && val &&& (val - 1) == 0

def setupNotificationStructure (dev : IOPCIDevice) (cap : VirtioPCICap) (configOffset : UInt8) :
    Bool :=
  let notifyOffMultiplier := dev.configRead32 (configOffset + UInt8.ofNat VirtioPCICap.size)
  !(notifyOffMultiplier != 0 && !isPow2 notifyOffMultiplier) && cap.barOffset % 2 == 0 &&
    !(cap.barLength < 2) && dev.checkBarTypeAndLength cap.bar cap.barLength

def setupISRStatusStructure (dev : IOPCIDevice) (cap : VirtioPCICap) : Bool :=
  !(cap.barLength < 1) && dev.checkBarTypeAndLength cap.bar cap.barLength

def setupDeviceSpecificStructure (dev : IOPCIDevice) (cap : VirtioPCICap) : Bool :=
  cap.barOffset % 4 == 0 && dev.checkBarTypeAndLength cap.bar cap.barLength

def virtioCapAt (dev : IOPCIDevice) (offset : UInt8) : VirtioPCICap where
  capVndr := dev.configRead8 offset
  capNext := dev.configRead8 (offset + 1)
  capLen := dev.configRead8 (offset + 2)
  cfgType := dev.configRead8 (offset + 3)
  bar := dev.configRead8 (offset + 4)
  barOffset := dev.configRead32 (offset + 8)
  barLength := dev.configRead32 (offset + 12)

abbrev CapChecked := VirtioPCICapType → Bool

/-- A structure is checked until one of its instances passes. -/
def checkOnce (type : VirtioPCICapType) (result : Bool) (capChecked : CapChecked) : CapChecked :=
  if capChecked type then capChecked else Function.update capChecked type result

def checkCapability (dev : IOPCIDevice) (offset capType : UInt8) (capChecked : CapChecked) :
    CapChecked :=
  if capType = vendorSpecificCapability then
    let cap := dev.virtioCapAt offset
    if cap.capLen.toNat < VirtioPCICap.size then capChecked
    else match VirtioPCICapType.ofCfgType cap.cfgType with
      | some .commonCfg => checkOnce .commonCfg (dev.setupCommonCFG cap) capChecked
      | some .notifyCfg =>
        checkOnce .notifyCfg (dev.setupNotificationStructure cap offset) capChecked
      | some .isrCfg => checkOnce .isrCfg (dev.setupISRStatusStructure cap) capChecked
      | some .deviceCfg => checkOnce .deviceCfg (dev.setupDeviceSpecificStructure cap) capChecked
      | some .pciCfg | none => capChecked
  else capChecked

/-- Whether `probe` returns `this`, and the device after it. What has been found out about the
structures is not looked at. -/
def probe (dev : IOPCIDevice) : Option (Bool × IOPCIDevice) :=
  let (memEnableReset, dev) := dev.setMemoryEnable true
  (dev.iterateCapabilities dev.checkCapability fun _ => false).map fun (ok, _) =>
    let (_, dev) := dev.setMemoryEnable memEnableReset
    let interruptRanges := dev.interruptRanges
    (ok && !(interruptRanges.irqPinStart == interruptRanges.irqPinEnd &&
      interruptRanges.msiStart == interruptRanges.msiEnd), dev)

variable {dev other : IOPCIDevice}

def offsetAt (dev : IOPCIDevice) (k : Nat) : UInt8 :=
  dev.nextCapabilityOffset^[k] dev.firstCapabilityOffset

def ValidOffset (offset : UInt8) : Prop := 0x40 ≤ offset ∧ offset % 4 = 0

theorem endsIteration_eq_false_iff : endsIteration offset = false ↔ ValidOffset offset := by
  simp [endsIteration,ValidOffset]

/-- The list has one capability and `length` further ones, which are all at valid offsets. -/
structure Ends (dev : IOPCIDevice) (length : Nat) : Prop where
  first : dev.firstCapabilityOffset ≠ 0
  ended : dev.offsetAt (length + 1) = 0
  valid : ∀ k < length, ValidOffset (dev.offsetAt (k + 1))

theorem not_validOffset_zero : ¬ValidOffset 0 := by
  unfold ValidOffset
  decide

theorem Ends.unique (ends : dev.Ends length) (again : dev.Ends length') : length = length' := by
  have notShorter {l l' : Nat} (ends : dev.Ends l) (again : dev.Ends l') : l' ≤ l := by
    by_contra longer
    have valid := again.valid l (by omega)
    rw [ends.ended] at valid
    exact not_validOffset_zero valid
  have := notShorter ends again
  have := notShorter again ends
  omega

def offsets (dev : IOPCIDevice) (count : Nat) : List UInt8 := (List.range count).map dev.offsetAt

theorem foldl_offsets (dev : IOPCIDevice) (visit : UInt8 → S → S) (count : Nat) (s : S) :
    (dev.offsets (count + 1)).foldl (fun s offset => visit offset s) s =
      (List.range count).foldl (fun s j => visit (dev.offsetAt (j + 1)) s)
        (visit dev.firstCapabilityOffset s) := by
  rw [offsets,List.range_succ_eq_map,List.map_cons,List.foldl_cons,List.foldl_map,List.foldl_map]
  rfl

structure Iterated (dev : IOPCIDevice) (success : Bool) (count : Nat) : Prop where
  succeeds : success = true ↔ ∃ length, dev.Ends length
  counted : ∀ length, dev.Ends length → count = length + 1
  some : dev.firstCapabilityOffset ≠ 0 → 0 < count
  valid : ∀ k, k + 1 < count → ValidOffset (dev.offsetAt (k + 1))

/-- The iteration always ends. It succeeds exactly if the list does, and has then called `fn`
for each of the capabilities. -/
theorem iterateCapabilities_spec (dev : IOPCIDevice) :
    ∃ success count, dev.Iterated success count ∧
      ∀ (S : Type) (fn : UInt8 → UInt8 → S → S) (s : S), dev.iterateCapabilities fn s =
        some (success, (dev.offsets count).foldl
          (fun s offset => fn offset (dev.configRead8 offset) s) s) := by
  by_cases absent : dev.firstCapabilityOffset = 0
  · refine ⟨false,0,⟨?_,?_,fun present => absurd absent present,nofun⟩,?_⟩
    · simp only [Bool.false_eq_true,false_iff,not_exists]
      exact fun _ ends => ends.first absent
    · exact fun _ ends => absurd absent ends.first
    · intro S fn s
      rw [iterateCapabilities,if_pos absent]
      rfl
  let bytes : Fintype UInt8 := Fintype.ofInjective UInt8.toFin fun _ _ => UInt8.toFin_inj.mp
  have few : Fintype.card UInt8 ≤ 256 := by
    have := Fintype.card_le_of_injective UInt8.toFin fun _ _ => UInt8.toFin_inj.mp
    simpa using this
  obtain ⟨steps,stops,before,walked⟩ := CycleWalk.walk_ends dev.nextCapabilityOffset endsIteration
    dev.firstCapabilityOffset (show 2 * Fintype.card UInt8 ≤ capabilityFuel by
      unfold capabilityFuel
      omega)
  have reaches := CycleWalk.stops_last_iff 0 (by decide) absent stops before
  simp only [endsIteration_eq_false_iff] at reaches
  have succeeds : dev.offsetAt (steps + 1) = 0 ↔ ∃ length, dev.Ends length := by
    refine reaches.trans ⟨?_,?_⟩
    · rintro ⟨length,ended,valid⟩
      exact ⟨length,absent,ended,valid⟩
    · rintro ⟨length,_,ended,valid⟩
      exact ⟨length,ended,valid⟩
  have valid : ∀ k < steps, ValidOffset (dev.offsetAt (k + 1)) := by
    intro k less
    rw [← endsIteration_eq_false_iff]
    exact Bool.eq_false_iff.mpr fun ended => before k less (.inl ended)
  refine ⟨dev.offsetAt (steps + 1) == 0,steps + 1,⟨by rw [beq_iff_eq,succeeds],?_,?_,?_⟩,?_⟩
  · intro length ends
    have here : dev.Ends steps := ⟨absent,succeeds.mpr ⟨length,ends⟩,valid⟩
    rw [here.unique ends]
  · exact fun _ => Nat.succ_pos steps
  · exact fun k less => valid k (by omega)
  · intro S fn s
    rw [iterateCapabilities,if_neg absent]
    simp only [walked,Option.map_some]
    rw [foldl_offsets dev (fun offset => fn offset (dev.configRead8 offset))]
    rfl

/-- The check of a structure of some type; there is none for the last of them. -/
def structureCheck (dev : IOPCIDevice) (offset : UInt8) : VirtioPCICapType → Bool
  | .commonCfg => dev.setupCommonCFG (dev.virtioCapAt offset)
  | .notifyCfg => dev.setupNotificationStructure (dev.virtioCapAt offset) offset
  | .isrCfg => dev.setupISRStatusStructure (dev.virtioCapAt offset)
  | .deviceCfg => dev.setupDeviceSpecificStructure (dev.virtioCapAt offset)
  | .pciCfg => false

def instanceAt (dev : IOPCIDevice) (offset : UInt8) : Option (VirtioPCICapType × Bool) :=
  if dev.configRead8 offset = vendorSpecificCapability ∧
      VirtioPCICap.size ≤ (dev.virtioCapAt offset).capLen.toNat then
    (VirtioPCICapType.ofCfgType (dev.virtioCapAt offset).cfgType).map fun type =>
      (type, dev.structureCheck offset type)
  else none

structure Passes (dev : IOPCIDevice) (type : VirtioPCICapType) (offset : UInt8) : Prop where
  vendor : dev.configRead8 offset = vendorSpecificCapability
  long : VirtioPCICap.size ≤ (dev.virtioCapAt offset).capLen.toNat
  cfgType : VirtioPCICapType.ofCfgType (dev.virtioCapAt offset).cfgType = some type
  passed : dev.structureCheck offset type = true

theorem instanceAt_passes_iff : dev.instanceAt offset = some (type, true) ↔ dev.Passes type offset := by
  constructor
  · intro found
    unfold instanceAt at found
    split at found
    · rename_i vendor
      obtain ⟨same,known,equal⟩ := Option.map_eq_some_iff.mp found
      obtain ⟨rfl,passed⟩ := Prod.mk.inj equal
      exact ⟨vendor.1,vendor.2,known,passed⟩
    · cases found
  · intro passes
    rw [instanceAt,if_pos ⟨passes.vendor,passes.long⟩,passes.cfgType,Option.map_some,passes.passed]

theorem checkOnce_iff : checkOnce type result capChecked asked = true ↔
    capChecked asked = true ∨ (asked, true) = (type, result) := by
  unfold checkOnce
  by_cases same : asked = type
  · subst asked
    cases set : capChecked type with
    | true => simp [set]
    | false => simp [eq_comm (a := true)]
  · split <;> simp [same]

/-- A check that fails leaves the flags alone. -/
theorem checkOnce_false (type : VirtioPCICapType) (capChecked : CapChecked) :
    checkOnce type false capChecked = capChecked := by
  funext asked
  rw [Bool.eq_iff_iff,checkOnce_iff]
  simp

theorem checkCapability_eq (dev : IOPCIDevice) (offset : UInt8) (capChecked : CapChecked) :
    dev.checkCapability offset (dev.configRead8 offset) capChecked =
      (dev.instanceAt offset).elim capChecked fun found => checkOnce found.1 found.2 capChecked := by
  by_cases vendor : dev.configRead8 offset = vendorSpecificCapability
  · by_cases short : (dev.virtioCapAt offset).capLen.toNat < VirtioPCICap.size
    · have absent : dev.instanceAt offset = none := if_neg fun both => Nat.not_lt.mpr both.2 short
      rw [absent,checkCapability,if_pos vendor]
      exact if_pos short
    · have present : dev.instanceAt offset = _ := if_pos ⟨vendor,Nat.not_lt.mp short⟩
      rw [present,checkCapability,if_pos vendor]
      refine (if_neg short).trans ?_
      cases VirtioPCICapType.ofCfgType (dev.virtioCapAt offset).cfgType with
      | none => rfl
      | some type =>
        cases type with
        | pciCfg => exact (checkOnce_false _ _).symm
        | _ => rfl
  · have absent : dev.instanceAt offset = none := if_neg fun both => vendor both.1
    rw [absent,checkCapability,if_neg vendor,Option.elim_none]

def checkInstances (instances : List (VirtioPCICapType × Bool)) (capChecked : CapChecked) :
    CapChecked :=
  instances.foldl (fun capChecked found => checkOnce found.1 found.2 capChecked) capChecked

theorem foldl_checkCapability (dev : IOPCIDevice) (offsets : List UInt8) (capChecked : CapChecked) :
    offsets.foldl (fun capChecked offset =>
        dev.checkCapability offset (dev.configRead8 offset) capChecked) capChecked =
      checkInstances (offsets.filterMap dev.instanceAt) capChecked := by
  induction offsets generalizing capChecked with
  | nil => rfl
  | cons offset rest ih =>
    rw [List.foldl_cons,ih,checkCapability_eq]
    cases found : dev.instanceAt offset with
    | none => rw [List.filterMap_cons_none found,Option.elim_none]
    | some found' => rw [List.filterMap_cons_some found,Option.elim_some,checkInstances,checkInstances,
        List.foldl_cons]

/-- A flag that is set stays set, and is set by an instance that passes. -/
theorem checkInstances_iff : checkInstances instances capChecked type = true ↔
    capChecked type = true ∨ (type, true) ∈ instances := by
  induction instances generalizing capChecked with
  | nil => simp [checkInstances]
  | cons found rest ih =>
    have step : checkInstances (found :: rest) capChecked =
        checkInstances rest (checkOnce found.1 found.2 capChecked) := rfl
    rw [step,ih,checkOnce_iff,List.mem_cons,or_assoc]

/-- The instances without those that follow one of the same type that passes. -/
def leading (capChecked : CapChecked) :
    List (VirtioPCICapType × Bool) → List (VirtioPCICapType × Bool)
  | [] => []
  | found :: rest => if capChecked found.1 then leading capChecked rest
      else found :: leading (checkOnce found.1 found.2 capChecked) rest

theorem checkInstances_leading (instances : List (VirtioPCICapType × Bool))
    (capChecked : CapChecked) :
    checkInstances (leading capChecked instances) capChecked =
      checkInstances instances capChecked := by
  induction instances generalizing capChecked with
  | nil => rfl
  | cons found rest ih =>
    have step : checkInstances (found :: rest) capChecked =
        checkInstances rest (checkOnce found.1 found.2 capChecked) := rfl
    rw [leading,step]
    split
    · rename_i set
      rw [ih,checkOnce,if_pos set]
    · exact ih (checkOnce found.1 found.2 capChecked)

def capabilityOffsets (dev : IOPCIDevice) : List UInt8 :=
  ((dev.iterateCapabilities (fun offset _ offsets => offsets ++ [offset]) []).map Prod.snd).getD []

def capChecked (dev : IOPCIDevice) : CapChecked :=
  ((dev.iterateCapabilities dev.checkCapability fun _ => false).map Prod.snd).getD fun _ => false

def instances (dev : IOPCIDevice) : List (VirtioPCICapType × Bool) :=
  dev.capabilityOffsets.filterMap dev.instanceAt

/-- A range is empty if its ends are the same. -/
def HasInterruptSource (dev : IOPCIDevice) : Prop :=
  dev.interruptRanges.irqPinStart ≠ dev.interruptRanges.irqPinEnd ∨
    dev.interruptRanges.msiStart ≠ dev.interruptRanges.msiEnd

theorem probe_spec (dev : IOPCIDevice) :
    ∃ accepted, dev.probe = some (accepted, dev) ∧
      (accepted = true ↔ (∃ length, dev.Ends length) ∧ dev.HasInterruptSource) ∧
      dev.capChecked = checkInstances dev.instances (fun _ => false) ∧
      ∀ length, dev.Ends length → dev.capabilityOffsets = dev.offsets (length + 1) := by
  obtain ⟨success,count,⟨succeeds,counted,_,_⟩,iterated⟩ := iterateCapabilities_spec dev
  have listed : dev.capabilityOffsets = dev.offsets count := by
    rw [capabilityOffsets,iterated]
    simp only [Option.map_some,Option.getD_some]
    rw [List.foldl_append_eq_append,List.nil_append,← List.flatMap_def,List.flatMap_singleton']
  refine ⟨success && !(dev.interruptRanges.irqPinStart == dev.interruptRanges.irqPinEnd &&
    dev.interruptRanges.msiStart == dev.interruptRanges.msiEnd),?_,?_,?_,?_⟩
  · have walked : ({ dev with memoryEnable := true } : IOPCIDevice).iterateCapabilities
        (checkCapability { dev with memoryEnable := true }) (fun _ => false) = some (success, _) :=
      iterated _ dev.checkCapability fun _ => false
    rw [probe,setMemoryEnable]
    simp only [walked,Option.map_some]
    rfl
  · simp only [Bool.and_eq_true,succeeds,HasInterruptSource]
    simp [or_iff_not_imp_left]
  · rw [capChecked,iterated,instances,listed]
    exact foldl_checkCapability dev _ _
  · intro length ends
    rw [listed,counted length ends]

def requiredStructures : List VirtioPCICapType := [.commonCfg, .notifyCfg, .isrCfg]

/-- The list begins at a valid offset, and each structure that is needed is in it. -/
structure Complete (dev : IOPCIDevice) (length : Nat) : Prop where
  first : ValidOffset dev.firstCapabilityOffset
  structures : ∀ type ∈ requiredStructures, ∃ k ≤ length, dev.Passes type (dev.offsetAt k)

structure Usable (dev : IOPCIDevice) : Prop where
  capabilities : ∃ length, dev.Ends length ∧ dev.Complete length
  interrupts : dev.HasInterruptSource

structure SameApartFromDuplicates (dev other : IOPCIDevice) : Prop where
  interrupts : other.interruptRanges = dev.interruptRanges
  ends : (∃ length, other.Ends length) ↔ ∃ length, dev.Ends length
  leading : leading (fun _ => false) other.instances = leading (fun _ => false) dev.instances

theorem capChecked_iff (dev : IOPCIDevice) (type : VirtioPCICapType) :
    dev.capChecked type = true ↔ ∃ offset ∈ dev.capabilityOffsets, dev.Passes type offset := by
  obtain ⟨_,_,_,flags,_⟩ := probe_spec dev
  rw [flags,checkInstances_iff,instances,List.mem_filterMap]
  simp only [Bool.false_eq_true,false_or,instanceAt_passes_iff]

theorem SameApartFromDuplicates.outcome (same : dev.SameApartFromDuplicates other) :
    other.capChecked = dev.capChecked ∧ other.probe.map Prod.fst = dev.probe.map Prod.fst := by
  obtain ⟨accepted,probed,decided,flags,_⟩ := probe_spec dev
  obtain ⟨accepted',probed',decided',flags',_⟩ := probe_spec other
  refine ⟨?_,?_⟩
  · rw [flags,flags',← checkInstances_leading,same.leading,checkInstances_leading]
  · have agree : accepted' = accepted := by
      rw [Bool.eq_iff_iff,decided,decided',same.ends,HasInterruptSource,HasInterruptSource,
        same.interrupts]
    rw [probed,probed',agree]
    rfl

end IOPCIDevice

open IOPCIDevice

/-- A device is accepted for its list and its interrupts alone, so that only those are usable
which are complete anyway. What the checks have found out does not depend on duplicates. -/
theorem probe_usable_iff (dev : IOPCIDevice) :
    (((∃ accepted, dev.probe = some (accepted, dev) ∧ (accepted = true → dev.Usable)) ∧
      ∀ other, dev.SameApartFromDuplicates other →
        other.capChecked = dev.capChecked ∧ other.probe.map Prod.fst = dev.probe.map Prod.fst) ↔
      ∀ length, dev.Ends length → dev.HasInterruptSource → dev.Complete length) ∧
    ∀ type, dev.capChecked type = true ↔ ∃ offset ∈ dev.capabilityOffsets, dev.Passes type offset := by
  refine ⟨⟨?_,?_⟩,capChecked_iff dev⟩
  · rintro ⟨⟨accepted,probed,usable⟩,_⟩ length ends interrupts
    obtain ⟨accepted',probed',decided,_⟩ := probe_spec dev
    obtain ⟨rfl,_⟩ := Prod.mk.inj (Option.some.inj (probed.symm.trans probed'))
    obtain ⟨length',ends',complete⟩ := (usable (decided.mpr ⟨⟨length,ends⟩,interrupts⟩)).capabilities
    rwa [ends.unique ends']
  · intro complete
    obtain ⟨accepted,probed,decided,_⟩ := probe_spec dev
    refine ⟨⟨accepted,probed,fun this => ?_⟩,fun other same => same.outcome⟩
    obtain ⟨⟨length,ends⟩,interrupts⟩ := decided.mp this
    exact ⟨⟨length,ends,complete length ends interrupts⟩,interrupts⟩

/-- A device with one capability, for its interrupts, and no virtio structures at all. -/
def legacyDevice : IOPCIDevice where
  configRead8 offset := if offset = 0x40 then 0x11 else 0
  configRead32 _ := 0
  firstCapabilityOffset := 0x40
  nextCapabilityOffset _ := 0
  registerForRangeIndex index := 0x10 + 4 * index
  memoryRangeType _ := .ioSpace
  deviceMemoryLength _ := some 64
  interruptRanges := ⟨0, 1, 1, 3⟩
  memoryEnable := false

theorem probe_accepts_legacy :
    legacyDevice.probe = some (true, legacyDevice) ∧ ¬legacyDevice.Usable ∧
      legacyDevice.capabilityOffsets = [0x40] ∧
      ∀ type offset, ¬legacyDevice.Passes type offset := by
  have missing : ∀ type offset, ¬legacyDevice.Passes type offset := by
    intro type offset passes
    have vendor := passes.vendor
    simp only [legacyDevice,vendorSpecificCapability] at vendor
    split at vendor <;> cases vendor
  refine ⟨by rfl,fun usable => ?_,by decide +kernel,missing⟩
  obtain ⟨length,_,complete⟩ := usable.capabilities
  obtain ⟨k,_,passes⟩ := complete.structures .commonCfg (by decide)
  exact missing _ _ passes

end VirtioOsx
