import Mathlib.Logic.Relation
import VirtioOsx.CompletionRuns
import VirtioOsx.DeviceClients

/-! Which registers the drivers access while the header is not mapped, and what closing the
device leaves behind. -/
namespace VirtioOsx

open Runs

/-- An access while the header is mapped, a read of the loop that prints it, or the status
that `failDevice` writes. -/
def HeaderAccess.Accounted (a : HeaderAccess) : Prop :=
  a.mapped = true ∨ (a.written = none ∧ 4 ∣ a.offset) ∨
    (a.written = some 128 ∧ a.offset = VirtioLegacyHeaderOffset.deviceStatus)

structure VirtioLegacyPCIDevice.Released (d : VirtioLegacyPCIDevice) : Prop where
  opened : d.opened = false
  iomap : d.pciVirtioHeaderIomap = false
  virtqueues : d.virtqueues = none
  intrEventSource : d.intrEventSource = false

def AccessesGrow (fresh : HeaderAccess → Prop) (d d' : VirtioLegacyPCIDevice) : Prop :=
  ∃ more, d'.accesses = d.accesses ++ more ∧ ∀ a ∈ more, fresh a

theorem AccessesGrow.refl (d : VirtioLegacyPCIDevice) : AccessesGrow fresh d d :=
  ⟨[],by simp,by simp⟩

theorem AccessesGrow.trans (first : AccessesGrow fresh d d') (second : AccessesGrow fresh d' d'') :
    AccessesGrow fresh d d'' := by
  obtain ⟨more,grown,good⟩ := first
  obtain ⟨rest,further,fine⟩ := second
  refine ⟨more ++ rest,by rw [further,grown,List.append_assoc],?_⟩
  intro a member
  rcases List.mem_append.mp member with early | late
  · exact good a early
  · exact fine a late

theorem AccessesGrow.mono (weaker : ∀ a, fresh a → milder a) (grow : AccessesGrow fresh d d') :
    AccessesGrow milder d d' := by
  obtain ⟨more,grown,good⟩ := grow
  exact ⟨more,grown,fun a member => weaker a (good a member)⟩

theorem AccessesGrow.all (grow : AccessesGrow fresh d d') (old : ∀ a ∈ d.accesses, fresh a) :
    ∀ a ∈ d'.accesses, fresh a := by
  obtain ⟨more,grown,good⟩ := grow
  intro a member
  rw [grown] at member
  rcases List.mem_append.mp member with early | late
  · exact old a early
  · exact good a late

theorem AccessesGrow.subset (grow : AccessesGrow fresh d d') (member : a ∈ d.accesses) :
    a ∈ d'.accesses := by
  obtain ⟨more,grown,_⟩ := grow
  rw [grown]
  exact List.mem_append_left _ member

namespace VirtioLegacyPCIDevice

/-- The members that the life of the device is about, less the record of its accesses. -/
structure SameState (d d' : VirtioLegacyPCIDevice) : Prop where
  opened : d'.opened = d.opened
  iomap : d'.pciVirtioHeaderIomap = d.pciVirtioHeaderIomap
  virtqueues : d'.virtqueues = d.virtqueues
  intrEventSource : d'.intrEventSource = d.intrEventSource

theorem SameState.refl (d : VirtioLegacyPCIDevice) : SameState d d := ⟨rfl,rfl,rfl,rfl⟩

theorem SameState.trans (first : SameState d d') (second : SameState d' d'') : SameState d d'' :=
  ⟨second.opened.trans first.opened,second.iomap.trans first.iomap,
    second.virtqueues.trans first.virtqueues,second.intrEventSource.trans first.intrEventSource⟩

def Accesses (d d' : VirtioLegacyPCIDevice) : Prop :=
  SameState d d' ∧ AccessesGrow (fun a => a.mapped = d.pciVirtioHeaderIomap) d d'

theorem Accesses.refl (d : VirtioLegacyPCIDevice) : Accesses d d := ⟨.refl d,.refl d⟩

theorem Accesses.trans (first : Accesses d d') (second : Accesses d' d'') : Accesses d d'' := by
  refine ⟨first.1.trans second.1,first.2.trans ?_⟩
  apply second.2.mono
  intro a through
  rw [through,first.1.iomap]

theorem access_accesses (d : VirtioLegacyPCIDevice) (offset : Nat) (written : Option Nat) :
    Accesses d (d.access offset written) :=
  ⟨⟨rfl,rfl,rfl,rfl⟩,[⟨offset,written,d.pciVirtioHeaderIomap⟩],rfl,by simp⟩

theorem foldl_accesses {body : VirtioLegacyPCIDevice → A → VirtioLegacyPCIDevice}
    (each : ∀ d x, Accesses d (body d x)) (d : VirtioLegacyPCIDevice) (xs : List A) :
    Accesses d (xs.foldl body d) := by
  induction xs generalizing d with
  | nil => exact .refl d
  | cons x xs ih => exact (each d x).trans (ih (body d x))

theorem read_accesses (d : VirtioLegacyPCIDevice) (offsets : List Nat) :
    Accesses d (d.read offsets) :=
  foldl_accesses (fun d offset => d.access_accesses offset none) d offsets

theorem msixQueueVectors_accesses (d : VirtioLegacyPCIDevice) : Accesses d d.msixQueueVectors :=
  foldl_accesses (fun d _ =>
    (d.access_accesses _ _).trans ((access_accesses _ _ _).trans (access_accesses _ _ _))) d _

theorem read_grow (d : VirtioLegacyPCIDevice) (offsets : List Nat) :
    (d.read offsets).accesses =
      d.accesses ++ offsets.map fun offset => ⟨offset,none,d.pciVirtioHeaderIomap⟩ := by
  induction offsets generalizing d with
  | nil => simp [read]
  | cons offset rest ih =>
    have later := ih (d.access offset none)
    simp only [read,List.foldl_cons] at later ⊢
    rw [later]
    simp [access]

theorem failDevice_grow (d : VirtioLegacyPCIDevice) :
    AccessesGrow (fun a => a.written = some 128 ∧
      a.offset = VirtioLegacyHeaderOffset.deviceStatus ∧ a.mapped = d.pciVirtioHeaderIomap)
      d d.failDevice :=
  ⟨[⟨_,_,_⟩],rfl,by simp⟩

/-- A successful call leaves queues behind and the mapping in place; a failing one leaves the
device failed. Every access goes through the mapping. -/
theorem setupFrom_spec {d : VirtioLegacyPCIDevice} (queues : List VirtioLegacyPCIVirtqueue)
    (setups : List QueueSetup) (mapped : d.pciVirtioHeaderIomap = true) :
    AccessesGrow (fun a => a.mapped = true) d (d.setupFrom queues setups).device ∧
    (d.setupFrom queues setups).device.opened = d.opened ∧
    ((d.setupFrom queues setups).result = .success ∧
      (d.setupFrom queues setups).device.pciVirtioHeaderIomap = true ∧
      (d.setupFrom queues setups).device.virtqueues ≠ none ∧
      (d.setupFrom queues setups).device.intrEventSource = d.intrEventSource ∨
    (d.setupFrom queues setups).result ≠ .success ∧
      (d.setupFrom queues setups).device.pciVirtioHeaderIomap = false ∧
      (d.setupFrom queues setups).device.virtqueues = d.virtqueues ∧
      (d.setupFrom queues setups).device.intrEventSource = false) := by
  induction setups generalizing d queues with
  | nil => exact ⟨.refl _,rfl,.inl ⟨rfl,mapped,by simp [setupFrom],rfl⟩⟩
  | cons setup rest ih =>
    simp only [setupFrom]
    have selected := (d.access_accesses VirtioLegacyHeaderOffset.queueSelect
      (some queues.length)).trans (access_accesses _ VirtioLegacyHeaderOffset.queueSize none)
    have fresh : AccessesGrow (fun a => a.mapped = true) d ((d.access _ _).access _ none) :=
      selected.2.mono fun a through => by rw [through,mapped]
    split
    · rename_i result failed
      refine ⟨fresh.trans ?_,rfl,.inr ⟨setupVirtqueue_error failed,rfl,rfl,rfl⟩⟩
      exact (failDevice_grow _).mono fun a through => by rw [through.2.2]; exact mapped
    · rename_i queue built
      obtain ⟨grown,opened,outcome⟩ := ih (d := ((d.access _ _).access _ none).access
        VirtioLegacyHeaderOffset.queueAddress (some (setup.segmentAddress / 4096 % 2^32)))
        (queues ++ [⟨true,true,true,Machine.start queue⟩]) mapped
      refine ⟨?_,opened,outcome⟩
      apply fresh.trans
      apply AccessesGrow.trans ?_ grown
      exact ((access_accesses _ _ _).2.mono fun a through => by rw [through]; exact mapped)

end VirtioLegacyPCIDevice

namespace VirtioDevice

open VirtioLegacyPCIDevice

/-- One of the calls that the drivers make. Other than to open, fail or close the device they
are made while the header is mapped. -/
inductive Called : VirtioDevice → VirtioDevice → Prop where
  | accesses (mapped : d.pci.pciVirtioHeaderIomap = true) (through : Accesses d.pci d'.pci)
      (same : d'.closed = d.closed) : Called d d'
  | handleOpen : Called d (d.handleOpen iomap).2
  | setupVirtqueues (mapped : d.pci.pciVirtioHeaderIomap = true)
      (fresh : d.pci.virtqueues = none) : Called d (d.setupVirtqueues allocated setups).2
  | beginHandlingInterrupts (mapped : d.pci.pciVirtioHeaderIomap = true)
      (ready : d.pci.virtqueues ≠ none) : Called d (d.beginHandlingInterrupts calls).2
  | failDevice : Called d d.failDevice
  | close : Called d d.close

abbrev Calls := Relation.ReflTransGen Called

/-- The mapping and the queues belong to an open device, the interrupt source to one that is
set up, and whatever has been closed has been released. -/
structure Lawful (d : VirtioDevice) : Prop where
  accounted : ∀ a ∈ d.pci.accesses, a.Accounted
  iomap : d.pci.pciVirtioHeaderIomap = true → d.pci.opened = true
  virtqueues : d.pci.virtqueues ≠ none → d.pci.opened = true
  interrupts : d.pci.intrEventSource = true →
    d.pci.pciVirtioHeaderIomap = true ∧ d.pci.virtqueues ≠ none
  closed : ∀ left ∈ d.closed, left.Released

theorem headerOffsets_dvd (member : offset ∈ headerOffsets length) : 4 ∣ offset := by
  obtain ⟨i,_,rfl⟩ := List.mem_map.mp member
  exact Nat.dvd_mul_right 4 i

theorem handleOpen_maps {d : VirtioDevice} (free : d.pci.opened = false)
    (unmapped : d.pci.pciVirtioHeaderIomap = false) (range : HeaderRange) :
    d.handleOpen (some range) = (true, { d with
      pci := { ({ d.pci with opened := true }).read (headerOffsets range.length) with
        pciVirtioHeaderIomap := true }
      headerLength := range.length }) := by
  simp [handleOpen,mapHeaderIORegion,free,unmapped]

theorem handleOpen_refused {d : VirtioDevice} (refused : (d.handleOpen iomap).1 = false) :
    (d.handleOpen iomap).2 = d := by
  by_cases unmapped : d.pci.pciVirtioHeaderIomap = false
  · by_cases free : d.pci.opened = false
    · cases iomap with
      | none =>
        obtain ⟨⟨opened,iomap,_,_,_,_,_,_⟩,_,_,_,_⟩ := d
        simp_all [handleOpen,mapHeaderIORegion]
      | some range => rw [handleOpen_maps free unmapped] at refused; cases refused
    · simp [handleOpen,free,unmapped]
  · simp [handleOpen,unmapped]

theorem handleOpen_granted {d : VirtioDevice} (granted : (d.handleOpen iomap).1 = true) :
    d.pci.opened = false ∧ d.pci.pciVirtioHeaderIomap = false ∧ ∃ range, iomap = some range := by
  by_cases unmapped : d.pci.pciVirtioHeaderIomap = false
  · by_cases free : d.pci.opened = false
    · cases iomap with
      | none => simp [handleOpen,mapHeaderIORegion,free,unmapped] at granted
      | some range => exact ⟨free,unmapped,range,rfl⟩
    · simp [handleOpen,free,unmapped] at granted
  · simp [handleOpen,unmapped] at granted

theorem handleOpen_grow (d : VirtioDevice) (iomap : Option HeaderRange) :
    AccessesGrow (fun a => a.written = none ∧ 4 ∣ a.offset) d.pci (d.handleOpen iomap).2.pci := by
  cases outcome : (d.handleOpen iomap).1 with
  | false => rw [handleOpen_refused outcome]; exact .refl _
  | true =>
    obtain ⟨free,unmapped,range,rfl⟩ := handleOpen_granted outcome
    rw [handleOpen_maps free unmapped]
    refine ⟨_,read_grow _ _,?_⟩
    intro a member
    obtain ⟨offset,inside,rfl⟩ := List.mem_map.mp member
    exact ⟨rfl,headerOffsets_dvd inside⟩

theorem handleClose_released {d : VirtioLegacyPCIDevice}
    (interrupts : d.intrEventSource = true → d.virtqueues ≠ none) : d.handleClose.Released := by
  cases held : d.virtqueues with
  | some queues => constructor <;> simp [handleClose,held,VirtioLegacyPCIDevice.failDevice,free,
      endHandlingInterrupts]
  | none =>
    have off : d.intrEventSource = false := by
      by_contra on
      exact interrupts (by simpa using on) held
    constructor <;> simp [handleClose,held,off]

theorem handleClose_grow (d : VirtioLegacyPCIDevice) :
    AccessesGrow (fun a => a.written = some 128 ∧
      a.offset = VirtioLegacyHeaderOffset.deviceStatus) d d.handleClose := by
  cases held : d.virtqueues with
  | some queues =>
    refine ⟨[⟨VirtioLegacyHeaderOffset.deviceStatus,some 128,d.pciVirtioHeaderIomap⟩],?_,by simp⟩
    simp only [handleClose,held]
    rfl
  | none => exact ⟨[],by simp [handleClose,held],by simp⟩

/-- `startDevice` goes through here with an open device, and leaves it so. -/
theorem beginHandlingInterrupts_state (d : VirtioDevice) (calls : InterruptCalls) :
    (d.beginHandlingInterrupts calls).2.closed = d.closed ∧
    (d.beginHandlingInterrupts calls).2.pci.opened = d.pci.opened ∧
    (d.beginHandlingInterrupts calls).2.pci.pciVirtioHeaderIomap = d.pci.pciVirtioHeaderIomap ∧
    (d.beginHandlingInterrupts calls).2.pci.virtqueues = d.pci.virtqueues ∧
    AccessesGrow (fun a => a.mapped = d.pci.pciVirtioHeaderIomap) d.pci
      (d.beginHandlingInterrupts calls).2.pci := by
  simp only [beginHandlingInterrupts]
  cases calls.intrEventSource with
  | false => exact ⟨rfl,rfl,rfl,rfl,.refl _⟩
  | true =>
    cases calls.msixActive with
    | false => exact ⟨rfl,rfl,rfl,rfl,.refl _⟩
    | true =>
      have vectors := ((access_accesses { d.pci with intrEventSource := true }
        VirtioLegacyHeaderOffset.msixConfigVector (some 0)).trans
        (access_accesses _ VirtioLegacyHeaderOffset.msixConfigVector none)).trans
        (msixQueueVectors_accesses _)
      exact ⟨rfl,vectors.1.opened,vectors.1.iomap,vectors.1.virtqueues,vectors.2⟩

theorem setupVirtqueues_spec {d : VirtioDevice} (allocated : Bool) (setups : List QueueSetup)
    (mapped : d.pci.pciVirtioHeaderIomap = true) :
    AccessesGrow (fun a => a.mapped = true) d.pci (d.setupVirtqueues allocated setups).2.pci ∧
    (d.setupVirtqueues allocated setups).2.pci.opened = d.pci.opened ∧
    ((d.setupVirtqueues allocated setups).1 = .success ∧
      (d.setupVirtqueues allocated setups).2.pci.pciVirtioHeaderIomap = true ∧
      (d.setupVirtqueues allocated setups).2.pci.virtqueues ≠ none ∧
      (d.setupVirtqueues allocated setups).2.pci.intrEventSource = d.pci.intrEventSource ∨
    (d.setupVirtqueues allocated setups).1 ≠ .success ∧
      (d.setupVirtqueues allocated setups).2.pci.virtqueues = d.pci.virtqueues ∧
      ((d.setupVirtqueues allocated setups).2.pci.intrEventSource = false ∨
        (d.setupVirtqueues allocated setups).2.pci = d.pci)) := by
  simp only [VirtioDevice.setupVirtqueues,VirtioLegacyPCIDevice.setupVirtqueues]
  cases allocated with
  | false => exact ⟨.refl _,rfl,.inr ⟨by simp,rfl,.inr rfl⟩⟩
  | true =>
    obtain ⟨grown,opened,success | failure⟩ := setupFrom_spec [] setups mapped
    · exact ⟨grown,opened,.inl success⟩
    · exact ⟨grown,opened,.inr ⟨failure.1,failure.2.2.1,.inl failure.2.2.2⟩⟩

theorem Called.grow (called : Called d d') : AccessesGrow HeaderAccess.Accounted d.pci d'.pci := by
  cases called with
  | accesses mapped through same =>
    exact through.2.mono fun a direct => .inl (by rw [direct,mapped])
  | handleOpen => exact (handleOpen_grow _ _).mono fun a dump => .inr (.inl dump)
  | setupVirtqueues mapped fresh => exact (setupVirtqueues_spec _ _ mapped).1.mono fun a direct => .inl direct
  | beginHandlingInterrupts mapped ready =>
    exact (beginHandlingInterrupts_state _ _).2.2.2.2.mono fun a direct => .inl (by rw [direct,mapped])
  | failDevice =>
    exact (failDevice_grow _).mono fun a status => .inr (.inr ⟨status.1,status.2.1⟩)
  | close => exact (handleClose_grow _).mono fun a status => .inr (.inr status)

theorem Lawful.called (lawful : Lawful d) (called : Called d d') : Lawful d' := by
  have accounted := called.grow.all lawful.accounted
  cases called with
  | accesses mapped through same =>
    obtain ⟨opened,iomap,virtqueues,interrupts⟩ := through.1
    refine ⟨accounted,?_,?_,?_,by rw [same]; exact lawful.closed⟩
    · rw [opened,iomap]; exact lawful.iomap
    · rw [opened,virtqueues]; exact lawful.virtqueues
    · rw [interrupts,iomap,virtqueues]; exact lawful.interrupts
  | @handleOpen iomap =>
    cases outcome : (d.handleOpen iomap).1 with
    | false => rw [handleOpen_refused outcome] at accounted ⊢; exact lawful
    | true =>
      obtain ⟨free,unmapped,range,rfl⟩ := handleOpen_granted outcome
      rw [handleOpen_maps free unmapped] at accounted ⊢
      obtain ⟨opened,_,_,interrupts⟩ :=
        (read_accesses { d.pci with opened := true } (headerOffsets range.length)).1
      refine ⟨accounted,fun _ => opened,fun _ => opened,?_,lawful.closed⟩
      intro on
      have mapped := (lawful.interrupts (interrupts.symm.trans on)).1
      rw [unmapped] at mapped
      cases mapped
  | @setupVirtqueues allocated setups mapped fresh =>
    obtain ⟨grown,opened,outcome⟩ :=
      setupVirtqueues_spec allocated setups mapped
    have still := opened.trans (lawful.iomap mapped)
    refine ⟨accounted,fun _ => still,fun _ => still,?_,lawful.closed⟩
    intro on
    rcases outcome with ⟨_,iomap,ready,interrupts⟩ | ⟨_,same,off | unchanged⟩
    · exact ⟨iomap,ready⟩
    · rw [off] at on; cases on
    · rw [unchanged] at on ⊢; exact lawful.interrupts on
  | beginHandlingInterrupts mapped ready =>
    obtain ⟨closed,opened,iomap,virtqueues,_⟩ := beginHandlingInterrupts_state d _
    have still := opened.trans (lawful.iomap mapped)
    exact ⟨accounted,fun _ => still,fun _ => still,fun _ => ⟨iomap.trans mapped,by rwa [virtqueues]⟩,
      by rw [closed]; exact lawful.closed⟩
  | failDevice => exact ⟨accounted,by simp [VirtioDevice.failDevice,VirtioLegacyPCIDevice.failDevice],
      lawful.virtqueues,by simp [VirtioDevice.failDevice,VirtioLegacyPCIDevice.failDevice,
        endHandlingInterrupts],lawful.closed⟩
  | close =>
    have released := handleClose_released fun on => (lawful.interrupts on).2
    refine ⟨accounted,?_,?_,?_,?_⟩
    · simp [VirtioDevice.close,released.iomap]
    · simp [VirtioDevice.close,released.virtqueues]
    · simp [VirtioDevice.close,released.intrEventSource]
    · intro left member
      rcases List.mem_append.mp member with old | new
      · exact lawful.closed left old
      · obtain rfl := List.mem_singleton.mp new
        exact released

theorem Lawful.calls (lawful : Lawful d) (calls : Calls d d') : Lawful d' := by
  induction calls with
  | refl => exact lawful
  | tail _ called ih => exact ih.called called

theorem Calls.grow (calls : Calls d d') : AccessesGrow HeaderAccess.Accounted d.pci d'.pci := by
  induction calls with
  | refl => exact .refl _
  | tail _ called ih => exact ih.trans called.grow

def OnlyAccesses (d d' : VirtioDevice) : Prop := Accesses d.pci d'.pci ∧ d'.closed = d.closed

theorem OnlyAccesses.trans (first : OnlyAccesses d d') (second : OnlyAccesses d' d'') :
    OnlyAccesses d d'' := ⟨first.1.trans second.1,second.2.trans first.2⟩

theorem access_onlyAccesses (d : VirtioDevice) (offset : Nat) (written : Option Nat) :
    OnlyAccesses d (d.access offset written) := ⟨access_accesses _ _ _,rfl⟩

theorem readDeviceConfig_onlyAccesses (d : VirtioDevice) (offsets : List Nat) :
    OnlyAccesses d (d.readDeviceConfig offsets) := ⟨read_accesses _ _,rfl⟩

theorem resetDevice_onlyAccesses (d : VirtioDevice) (status : Nat) (features : BitVec 32) :
    OnlyAccesses d (d.resetDevice status features).2 := by
  have cleared := (access_accesses d.pci VirtioLegacyHeaderOffset.deviceStatus (some 0)).trans
    (access_accesses _ VirtioLegacyHeaderOffset.deviceStatus none)
  simp only [resetDevice]
  split
  · exact ⟨cleared,rfl⟩
  · refine ⟨cleared.trans ?_,rfl⟩
    exact ((access_accesses _ _ _).trans (access_accesses _ _ _)).trans (access_accesses _ _ _)

theorem requestFeatures_onlyAccesses (d : VirtioDevice) (useFeatures : BitVec 32) :
    OnlyAccesses d (d.requestFeatures useFeatures).2 := by
  simp only [requestFeatures]
  split
  · exact ⟨.refl _,rfl⟩
  · split
    · exact ⟨.refl _,rfl⟩
    · split
      · exact ⟨.refl _,rfl⟩
      · exact ⟨⟨⟨rfl,rfl,rfl,rfl⟩,[⟨_,_,_⟩],rfl,by simp⟩,rfl⟩

def Ready (d : VirtioDevice) : Prop :=
  d.pci.pciVirtioHeaderIomap = true ∧ d.pci.virtqueues = none

def Up (d : VirtioDevice) : Prop :=
  d.pci.pciVirtioHeaderIomap = true ∧ d.pci.virtqueues ≠ none

theorem OnlyAccesses.ready (only : OnlyAccesses d d') (ready : Ready d) : Calls d d' ∧ Ready d' :=
  ⟨.single (.accesses ready.1 only.1 only.2),only.1.1.iomap.trans ready.1,
    only.1.1.virtqueues.trans ready.2⟩

theorem OnlyAccesses.up (only : OnlyAccesses d d') (up : Up d) : Calls d d' ∧ Up d' :=
  ⟨.single (.accesses up.1 only.1 only.2),only.1.1.iomap.trans up.1,
    fun none => up.2 (only.1.1.virtqueues.symm.trans none)⟩

theorem failAndClose_calls (d : VirtioDevice) : Calls d d.failAndClose :=
  .tail (.single .failDevice) .close

theorem Lawful.granted (lawful : Lawful d) {range : Option HeaderRange}
    (granted : (d.handleOpen range).1 = true) : Ready (d.handleOpen range).2 := by
  obtain ⟨free,unmapped,range,rfl⟩ := handleOpen_granted granted
  rw [handleOpen_maps free unmapped]
  refine ⟨rfl,?_⟩
  have fresh : d.pci.virtqueues = none := by
    by_contra held
    rw [lawful.virtqueues held] at free
    cases free
  exact (read_accesses _ _).1.virtqueues.trans fresh

theorem Ready.setup (ready : Ready d) (allocated : Bool) (setups : List QueueSetup) :
    Calls d (d.setupVirtqueues allocated setups).2 ∧
      ((d.setupVirtqueues allocated setups).1 = .success →
        Up (d.setupVirtqueues allocated setups).2) := by
  refine ⟨.single (.setupVirtqueues ready.1 ready.2),?_⟩
  intro success
  obtain ⟨_,_,⟨_,iomap,queues,_⟩ | ⟨failed,_⟩⟩ :=
    setupVirtqueues_spec allocated setups ready.1
  · exact ⟨iomap,queues⟩
  · exact absurd success failed

theorem Up.startDevice (up : Up d) (calls : InterruptCalls) :
    Calls d (d.startDevice calls) ∧ Up (d.startDevice calls) := by
  obtain ⟨_,_,iomap,virtqueues,_⟩ := beginHandlingInterrupts_state d calls
  have still : Up (d.beginHandlingInterrupts calls).2 := ⟨iomap.trans up.1,by rw [virtqueues]; exact up.2⟩
  have only : OnlyAccesses (d.beginHandlingInterrupts calls).2 (d.startDevice calls) :=
    ⟨(access_accesses _ _ _).trans (read_accesses _ _),rfl⟩
  obtain ⟨later,after⟩ := only.up still
  exact ⟨.head (.beginHandlingInterrupts up.1 up.2) later,after⟩

/-- What a driver's function does to the device: calls, after which the device is up if the
function says so. -/
def Serves (d : VirtioDevice) (result : Bool × VirtioDevice) : Prop :=
  Calls d result.2 ∧ (result.1 = true → Up result.2)

theorem serves_failed (calls : Calls d d') : Serves d (false, d'.failAndClose) :=
  ⟨calls.trans (failAndClose_calls d'),nofun⟩

theorem Serves.from (calls : Calls d d') (served : Serves d' result) : Serves d result :=
  ⟨calls.trans served.1,served.2⟩

/-- The end of a driver's `start`: set up the queues, start the device, read its fields. -/
theorem Ready.starts (ready : Ready d) (allocated : Bool) (setups : List QueueSetup)
    (calls : InterruptCalls) (fields : List Nat) :
    Serves d (if (d.setupVirtqueues allocated setups).1 = .success then
        (true, ((d.setupVirtqueues allocated setups).2.startDevice calls).readDeviceConfig fields)
      else (false, (d.setupVirtqueues allocated setups).2.failAndClose)) := by
  obtain ⟨setup,up⟩ := ready.setup allocated setups
  split
  · rename_i success
    obtain ⟨start,running⟩ := (up success).startDevice calls
    obtain ⟨fields,still⟩ := (readDeviceConfig_onlyAccesses _ fields).up running
    exact ⟨setup.trans (start.trans fields),fun _ => still⟩
  · exact serves_failed setup

end VirtioDevice

open VirtioDevice

theorem VirtioBlockDevice.start_serves (lawful : Lawful d) (c : BringUp) :
    VirtioDevice.Serves (d.handleOpen c.iomap).2 (VirtioBlockDevice.start d c) := by
  simp only [VirtioBlockDevice.start]
  split
  · rename_i granted
    obtain ⟨reset,ready⟩ := (resetDevice_onlyAccesses _ c.deviceStatusValue c.features).ready
      (lawful.granted granted)
    obtain ⟨request,ready⟩ := (requestFeatures_onlyAccesses _ _).ready ready
    have before := reset.trans request
    split
    · obtain ⟨fields,ready⟩ := (readDeviceConfig_onlyAccesses _ _).ready ready
      apply VirtioDevice.Serves.from (before.trans fields)
      apply ready.starts
    · exact serves_failed before
  · exact ⟨.refl,nofun⟩

theorem VirtioMemBalloonDevice.start_serves (lawful : Lawful d) (c : BringUp) :
    VirtioDevice.Serves (d.handleOpen c.iomap).2 (VirtioMemBalloonDevice.start d c) := by
  simp only [VirtioMemBalloonDevice.start]
  split
  · rename_i granted
    obtain ⟨reset,ready⟩ := (resetDevice_onlyAccesses _ c.deviceStatusValue c.features).ready
      (lawful.granted granted)
    obtain ⟨request,ready⟩ := (requestFeatures_onlyAccesses _ _).ready ready
    have before := reset.trans request
    split
    · apply VirtioDevice.Serves.from before
      apply ready.starts
    · exact serves_failed before
  · exact ⟨.refl,nofun⟩

namespace PJVirtioNet

theorem readStatus_onlyAccesses (present : Bool) (d : VirtioDevice) :
    OnlyAccesses d (readStatus present d) := readDeviceConfig_onlyAccesses _ _

theorem start_calls (lawful : Lawful d) (c : BringUp) :
    Calls (d.handleOpen c.iomap).2 (start d c).2 := by
  simp only [start]
  split
  · rename_i granted
    split
    · obtain ⟨reset,ready⟩ := (resetDevice_onlyAccesses _ c.deviceStatusValue c.features).ready
        (lawful.granted granted)
      obtain ⟨mac,ready⟩ := (readDeviceConfig_onlyAccesses _ _).ready ready
      obtain ⟨status,_⟩ := (readStatus_onlyAccesses _ _).ready ready
      have before := reset.trans (mac.trans status)
      split
      · exact before.trans (failAndClose_calls _)
      · exact before.trans (failAndClose_calls _)
    · exact .refl
  · exact .refl

theorem start_started (started : (start d c).1 = some net) : net.driverState = .started := by
  simp only [start] at started
  split at started
  · split at started
    · split at started
      · exact congrArg driverState (Option.some.inj started).symm
      · cases started
    · cases started
  · cases started

theorem enablePartial_serves (lawful : Lawful d) (net : PJVirtioNet) (c : BringUp) :
    Serves (d.handleOpen c.iomap).2 (net.enablePartial d c) := by
  simp only [enablePartial]
  split
  · rename_i granted
    obtain ⟨reset,ready⟩ := (resetDevice_onlyAccesses _ c.deviceStatusValue c.features).ready
      (lawful.granted granted)
    split
    · obtain ⟨request,ready⟩ := (requestFeatures_onlyAccesses _ _).ready ready
      have before := reset.trans request
      split
      · obtain ⟨setup,up⟩ := ready.setup c.allocated _
        have before := before.trans setup
        split
        · rename_i success
          obtain ⟨start,running⟩ := (up success).startDevice c.interrupts
          split
          · exact ⟨before.trans start,fun _ => running⟩
          · exact serves_failed (before.trans start)
        · exact serves_failed before
      · exact serves_failed before
    · exact ⟨reset.tail .close,nofun⟩
  · exact ⟨.refl,nofun⟩

def Leaves (d : VirtioDevice) (result : PJVirtioNet × VirtioDevice) : Prop :=
  Calls d result.2 ∧ ((Client.net result.1).running = true → Up result.2)

theorem Leaves.from (calls : Calls d d') (left : Leaves d' result) : Leaves d result :=
  ⟨calls.trans left.1,left.2⟩

theorem enableQueues_leaves (up : Up d) (net : PJVirtioNet) (hasDebugger : Bool) (c : BringUp) :
    Leaves d (net.enableQueues hasDebugger d c) := by
  obtain ⟨status,still⟩ := (readStatus_onlyAccesses net.featureStatusField d).up up
  simp only [enableQueues]
  split
  · split
    · exact ⟨status,fun _ => still⟩
    · exact ⟨.single .failDevice,nofun⟩
  · exact ⟨.refl,nofun⟩

/-- `enablePartial` is reached from one state only, and its device then decides. -/
theorem gatedEnableInterface_opens {net : PJVirtioNet} {c : BringUp} (lawful : Lawful d)
    (fresh : net.driverState = .started)
    (same : c.sameInterface = true) :
    Leaves (d.handleOpen c.iomap).2 (net.gatedEnableInterface d c) := by
  obtain ⟨calls,up⟩ := enablePartial_serves lawful net c
  simp only [gatedEnableInterface,fresh,same,if_true]
  split
  · rename_i enabled
    exact .from calls (enableQueues_leaves (up enabled) net false c)
  · exact ⟨calls,nofun⟩

theorem gatedEnableDebugger_opens {net : PJVirtioNet} {c : BringUp} (lawful : Lawful d)
    (fresh : net.driverState = .started)
    (present : net.debugger = true) :
    Leaves (d.handleOpen c.iomap).2 (net.gatedEnableDebugger d c) := by
  obtain ⟨calls,up⟩ := enablePartial_serves lawful net c
  simp only [gatedEnableDebugger,fresh,present,if_true]
  refine ⟨calls,?_⟩
  cases enabled : (net.enablePartial d c).1 with
  | true => exact fun _ => up enabled
  | false => nofun

theorem enablePartial_refused {net : PJVirtioNet} {c : BringUp}
    (refused : (d.handleOpen c.iomap).1 = false) : net.enablePartial d c = (false, d) := by
  simp [enablePartial,refused,handleOpen_refused refused]

end PJVirtioNet

/-- The bring-up for which the driver calls `open`. -/
def ClientAction.opening : ClientAction → Option Client → Option BringUp
  | .startBlock c, none => some c
  | .startBalloon c, none => some c
  | .startNet c, none => some c
  | .enableInterface c, some (.net net) =>
    if net.driverState = .started ∧ c.sameInterface = true then some c else none
  | .enableDebugger c, some (.net net) =>
    if net.driverState = .started ∧ net.debugger = true then some c else none
  | _, _ => none

namespace ClientSystem

def Maps (s : ClientSystem) (a : ClientAction) : Prop :=
  s.device.pci.opened = false ∧ s.device.pci.pciVirtioHeaderIomap = false ∧
    ∃ c, a.opening s.client = some c ∧ c.iomap.isSome = true

structure Good (s : ClientSystem) : Prop where
  lawful : Lawful s.device
  running : ∀ client, s.client = some client → client.running = true → Up s.device

def Leaves (d : VirtioDevice) (s : ClientSystem) : Prop :=
  Calls d s.device ∧ ∀ client, s.client = some client → client.running = true → Up s.device

theorem leaves_attach {client : Client} (served : Serves d result) :
    Leaves d (attach client result) := by
  refine ⟨served.1,?_⟩
  intro other attached _
  apply served.2
  by_contra failed
  simp [attach,failed] at attached

theorem leaves_withNet (left : PJVirtioNet.Leaves d result) : Leaves d (withNet result) := by
  refine ⟨left.1,?_⟩
  intro client same running
  obtain rfl := Option.some.inj same
  exact left.2 running

theorem opens_leaves {s : ClientSystem} (lawful : Lawful s.device)
    (opens : a.opening s.client = some c) (taken : clientStep a s = some next) :
    Leaves (s.device.handleOpen c.iomap).2 next := by
  cases held : s.client with
  | none =>
    rw [held] at opens
    cases a <;> simp only [ClientAction.opening,Option.some.injEq,reduceCtorEq] at opens
    all_goals
      subst opens
      simp only [clientStep,held,Option.some.injEq] at taken
      subst taken
    · exact leaves_attach (VirtioBlockDevice.start_serves lawful _)
    · exact leaves_attach (VirtioMemBalloonDevice.start_serves lawful _)
    · refine ⟨PJVirtioNet.start_calls lawful _,?_⟩
      intro client started running
      obtain ⟨net,given,rfl⟩ := Option.map_eq_some_iff.mp started
      simp [Client.running,PJVirtioNet.start_started given] at running
  | some client =>
    rw [held] at opens
    cases client with
    | block => cases a <;> simp [ClientAction.opening] at opens
    | balloon => cases a <;> simp [ClientAction.opening] at opens
    | net net =>
      cases a <;> simp [ClientAction.opening] at opens
      all_goals
        obtain ⟨⟨fresh,fits⟩,rfl⟩ := opens
        simp only [clientStep,held,Option.some.injEq] at taken
        subst taken
      · exact leaves_withNet (PJVirtioNet.gatedEnableInterface_opens lawful fresh fits)
      · exact leaves_withNet (PJVirtioNet.gatedEnableDebugger_opens lawful fresh fits)

theorem leaves_closed (calls : Calls d d') : Leaves d ⟨d', none⟩ := ⟨calls,nofun⟩

/-- The driver disables the device only while it takes it to be up, so that afterwards
either nothing has changed or the device is closed. -/
theorem disable_leaves {net : PJVirtioNet} (up : (Client.net net).running = true → Up d) :
    PJVirtioNet.Leaves d (net.disableInterface d) ∧ PJVirtioNet.Leaves d (net.disableDebugger d) := by
  have closed : PJVirtioNet.Leaves d (net.disablePartial d) := ⟨failAndClose_calls d,nofun⟩
  constructor
  · cases state : net.driverState
    all_goals simp only [PJVirtioNet.disableInterface,state]
    case enabled => exact closed
    case enabledBoth => exact ⟨.refl,fun _ => up (by simp [Client.running,state])⟩
    all_goals exact ⟨.refl,up⟩
  · cases state : net.driverState
    all_goals simp only [PJVirtioNet.disableDebugger,state]
    case enabledDebugging => exact closed
    case enabledBoth => exact ⟨.refl,fun _ => up (by simp [Client.running,state])⟩
    all_goals exact ⟨.refl,up⟩

theorem stop_calls (net : PJVirtioNet) (d : VirtioDevice) : Calls d (net.stop d) := by
  have disabled : Calls d (net.disableInterface d).2 := by
    cases state : net.driverState
    all_goals simp only [PJVirtioNet.disableInterface,state]
    case enabled => exact failAndClose_calls d
    all_goals exact .refl
  simp only [PJVirtioNet.stop]
  split
  · exact disabled.trans (failAndClose_calls _)
  · exact disabled

/-- Without `enablePartial` the driver goes on only if it has the device up already. -/
theorem enable_leaves {net : PJVirtioNet} (up : (Client.net net).running = true → Up d)
    (c : BringUp) :
    (¬(net.driverState = .started ∧ c.sameInterface = true) →
      PJVirtioNet.Leaves d (net.gatedEnableInterface d c)) ∧
    (¬(net.driverState = .started ∧ net.debugger = true) →
      PJVirtioNet.Leaves d (net.gatedEnableDebugger d c)) := by
  constructor
  · intro other
    cases state : net.driverState
    all_goals simp only [PJVirtioNet.gatedEnableInterface,state]
    case started =>
      rw [if_neg fun same => other ⟨state,same⟩]
      exact ⟨.refl,nofun⟩
    case enabledDebugging =>
      split
      · exact PJVirtioNet.enableQueues_leaves (up (by simp [Client.running,state])) net true c
      · exact ⟨.refl,up⟩
    all_goals exact ⟨.refl,up⟩
  · intro other
    simp only [PJVirtioNet.gatedEnableDebugger]
    split
    · rename_i present
      cases state : net.driverState
      case started => exact absurd ⟨state,present⟩ other
      case enabled => exact ⟨.refl,fun _ => up (by simp [Client.running,state])⟩
      all_goals exact ⟨.refl,up⟩
    · exact ⟨.refl,up⟩

theorem configChanged_onlyAccesses (d : VirtioDevice) (client : Client) :
    OnlyAccesses d (configChanged d client) := by
  cases client with
  | block => exact ⟨.refl _,rfl⟩
  | balloon => exact readDeviceConfig_onlyAccesses _ _
  | net net => exact PJVirtioNet.readStatus_onlyAccesses _ _

/-- A device that is up stays so under accesses, and the driver is the same. -/
theorem leaves_accesses (only : OnlyAccesses d d') (up : Up d) (client : Option Client) :
    Leaves d ⟨d', client⟩ := by
  obtain ⟨calls,still⟩ := only.up up
  exact ⟨calls,fun _ _ _ => still⟩

theorem stays_leaves {s : ClientSystem} (good : Good s) (opens : a.opening s.client = none)
    (taken : clientStep a s = some next) : Leaves s.device next := by
  obtain ⟨d,held⟩ := s
  cases a
  case interruptFilter =>
    simp only [clientStep] at taken
    split at taken
    · rename_i on
      obtain rfl := Option.some.inj taken
      exact leaves_accesses (access_onlyAccesses _ _ _) (good.lawful.interrupts on) held
    · cases taken
  case configChange =>
    cases held with
    | none => cases taken
    | some client =>
      simp only [clientStep] at taken
      split at taken
      · rename_i on
        obtain rfl := Option.some.inj taken
        exact leaves_accesses (configChanged_onlyAccesses _ _) (good.lawful.interrupts on) _
      · cases taken
  case notify =>
    cases held with
    | none => cases taken
    | some client =>
      simp only [clientStep] at taken
      split at taken
      · rename_i running
        obtain rfl := Option.some.inj taken
        exact leaves_accesses (access_onlyAccesses _ _ _) (good.running _ rfl running) _
      · cases taken
  all_goals
    rcases held with _ | _ | _ | net
    all_goals simp only [clientStep,ClientAction.opening,reduceCtorEq] at taken opens
  case endDeviceOperation.some.block =>
    obtain rfl := Option.some.inj taken
    exact leaves_closed (failAndClose_calls d)
  case endDeviceOperation.some.balloon =>
    obtain rfl := Option.some.inj taken
    exact leaves_closed (failAndClose_calls d)
  case stop.some.net =>
    obtain rfl := Option.some.inj taken
    exact leaves_closed (stop_calls net d)
  case enableInterface.some.net c =>
    obtain rfl := Option.some.inj taken
    have other : ¬(net.driverState = .started ∧ c.sameInterface = true) := by simpa using opens
    exact leaves_withNet ((enable_leaves (good.running _ rfl) c).1 other)
  case enableDebugger.some.net c =>
    obtain rfl := Option.some.inj taken
    have other : ¬(net.driverState = .started ∧ net.debugger = true) := by simpa using opens
    exact leaves_withNet ((enable_leaves (good.running _ rfl) c).2 other)
  case disableInterface.some.net =>
    obtain rfl := Option.some.inj taken
    exact leaves_withNet (disable_leaves (good.running _ rfl)).1
  case disableDebugger.some.net =>
    obtain rfl := Option.some.inj taken
    exact leaves_withNet (disable_leaves (good.running _ rfl)).2

theorem Good.leaves {s : ClientSystem} (good : Good s) (taken : clientStep a s = some next) :
    Leaves s.device next := by
  cases opens : a.opening s.client with
  | none => exact stays_leaves good opens taken
  | some c =>
    obtain ⟨calls,up⟩ := opens_leaves good.lawful opens taken
    exact ⟨.head .handleOpen calls,up⟩

theorem Good.keeps {s : ClientSystem} (good : Good s) (taken : clientStep a s = some next) :
    Good next :=
  ⟨good.lawful.calls (good.leaves taken).1,(good.leaves taken).2⟩

/-- The first register that is printed is read through a null mapping. -/
theorem maps_unmapped {s : ClientSystem} (good : Good s) (maps : Maps s a)
    (taken : clientStep a s = some next) : ∃ x ∈ next.device.pci.accesses, x.mapped = false := by
  obtain ⟨free,unmapped,c,opens,given⟩ := maps
  obtain ⟨range,mapped⟩ := Option.isSome_iff_exists.mp given
  have later := (opens_leaves good.lawful opens taken).1.grow
  refine ⟨⟨0,none,false⟩,later.subset ?_,rfl⟩
  rw [mapped,handleOpen_maps free unmapped]
  simp only [VirtioLegacyPCIDevice.read_grow,unmapped]
  apply List.mem_append_right
  apply List.mem_map.mpr
  refine ⟨0,List.mem_map.mpr ⟨0,List.mem_range.mpr ?_,rfl⟩,rfl⟩
  have long : 20 ≤ range.length := range.minLen
  omega

structure Untouched (s : ClientSystem) : Prop where
  lawful : Lawful s.device
  opened : s.device.pci.opened = false
  accesses : s.device.pci.accesses = []
  idle : ∀ client, s.client = some client → client.running = false

theorem Untouched.unmapped {s : ClientSystem} (untouched : Untouched s) :
    s.device.pci.pciVirtioHeaderIomap = false := by
  by_contra mapped
  have opened := untouched.lawful.iomap (by simpa using mapped)
  rw [untouched.opened] at opened
  cases opened

theorem Untouched.off {s : ClientSystem} (untouched : Untouched s) :
    s.device.pci.intrEventSource = false := by
  by_contra on
  have mapped := (untouched.lawful.interrupts (by simpa using on)).1
  rw [untouched.unmapped] at mapped
  cases mapped

theorem open_refused {s : ClientSystem} (opens : a.opening s.client = some c) (refuses : ¬Maps s a) :
    (s.device.handleOpen c.iomap).1 = false := by
  by_contra granted
  obtain ⟨free,unmapped,range,given⟩ := handleOpen_granted (by simpa using granted)
  exact refuses ⟨free,unmapped,c,opens,by simp [given]⟩

theorem refused_untouched {s : ClientSystem} (opens : a.opening s.client = some c)
    (refused : (s.device.handleOpen c.iomap).1 = false) (taken : clientStep a s = some next) :
    next.device = s.device ∧ ∀ client, next.client = some client → client.running = false := by
  have same := handleOpen_refused refused
  obtain ⟨d,held⟩ := s
  rcases held with _ | _ | _ | net
  · cases a <;> simp only [ClientAction.opening,Option.some.injEq,reduceCtorEq] at opens
    all_goals
      subst opens
      obtain rfl := Option.some.inj taken
    · simp [attach,VirtioBlockDevice.start,refused,same]
    · simp [attach,VirtioMemBalloonDevice.start,refused,same]
    · simp [PJVirtioNet.start,refused,same]
  · cases a <;> simp [ClientAction.opening] at opens
  · cases a <;> simp [ClientAction.opening] at opens
  · cases a <;> simp [ClientAction.opening] at opens
    all_goals
      obtain ⟨⟨fresh,fits⟩,rfl⟩ := opens
      obtain rfl := Option.some.inj taken
    · simp [withNet,PJVirtioNet.gatedEnableInterface,fresh,fits,
        PJVirtioNet.enablePartial_refused refused,Client.running]
    · simp [withNet,PJVirtioNet.gatedEnableDebugger,fresh,fits,
        PJVirtioNet.enablePartial_refused refused,Client.running]

theorem net_idle (idle : (Client.net net).running = false) :
    net.driverState = .started ∨ net.driverState = .enableFailed := by
  cases state : net.driverState <;> simp_all [Client.running]

/-- A driver that neither opens the device nor has it up leaves it alone. -/
theorem idle_untouched {s : ClientSystem} (untouched : Untouched s)
    (opens : a.opening s.client = none) (taken : clientStep a s = some next) :
    next.device = s.device ∧ ∀ client, next.client = some client → client.running = false := by
  have off := untouched.off
  obtain ⟨d,held⟩ := s
  simp only at off
  rcases held with _ | _ | _ | net
  · cases a <;> simp [clientStep,ClientAction.opening,off] at taken opens
  · cases untouched.idle _ rfl
  · cases untouched.idle _ rfl
  · have idle := untouched.idle _ rfl
    cases a
    case interruptFilter => simp [clientStep,off] at taken
    case configChange => simp [clientStep,off] at taken
    case notify => simp [clientStep,idle] at taken
    all_goals cases taken
    all_goals
      rcases net_idle idle with state | state
      all_goals simp_all [ClientAction.opening,withNet,PJVirtioNet.gatedEnableInterface,
        PJVirtioNet.gatedEnableDebugger,PJVirtioNet.disableInterface,PJVirtioNet.disableDebugger,
        PJVirtioNet.stop,Client.running]

theorem Untouched.keeps {s : ClientSystem} (untouched : Untouched s) (refuses : ¬Maps s a)
    (taken : clientStep a s = some next) : Untouched next := by
  have unchanged : next.device = s.device ∧
      ∀ client, next.client = some client → client.running = false := by
    cases opens : a.opening s.client with
    | none => exact idle_untouched untouched opens taken
    | some c => exact refused_untouched opens (open_refused opens refuses) taken
  obtain ⟨same,idle⟩ := unchanged
  exact ⟨by rw [same]; exact untouched.lawful,by rw [same]; exact untouched.opened,
    by rw [same]; exact untouched.accesses,idle⟩

end ClientSystem

/-- The device as its own `start` registers it, with the features it read. The record of the
accesses begins here. -/
def VirtioDevice.registered (features : BitVec 32) : VirtioDevice :=
  ⟨⟨false, false, 0, none, false, false, [], []⟩, 0, features,
    VirtioLegacyHeaderOffset.basicEndHeader, []⟩

def ClientSystem.registered (features : BitVec 32) : ClientSystem := ⟨.registered features, none⟩

/-- Every register has been accessed through a mapping, and the device has been released
whenever it was closed, so that it could be opened again. -/
def ClientSystem.RegistersSafe (s : ClientSystem) : Prop :=
  (∀ a ∈ s.device.pci.accesses, a.mapped = true) ∧
  ∀ left ∈ s.device.closed, left.Released ∧
    ∀ (d : VirtioDevice) (range : HeaderRange), d.pci = left → (d.handleOpen (some range)).1 = true

theorem ClientSystem.registered_untouched (features : BitVec 32) :
    Untouched (.registered features) :=
  ⟨⟨by simp [registered,VirtioDevice.registered],nofun,by simp [registered,VirtioDevice.registered],
    nofun,by simp [registered,VirtioDevice.registered]⟩,rfl,rfl,nofun⟩

theorem ClientSystem.good_run {features : BitVec 32}
    (run : Run clientStep (fun _ _ => True) (.registered features) actions s) : Good s :=
  Run.keeps Good (fun _ taken good => good.keeps taken) run
    ⟨(registered_untouched features).lawful,nofun⟩

/-- Whatever the drivers do, a register is accessed without a mapping only to print it or to
fail the device. -/
theorem ClientSystem.accesses_accounted {features : BitVec 32}
    (run : Run clientStep (fun _ _ => True) (.registered features) actions s) :
    ∀ a ∈ s.device.pci.accesses, a.Accounted :=
  (good_run run).lawful.accounted

theorem ClientSystem.unmapped_run (good : Good s)
    (broken : ∃ a ∈ s.device.pci.accesses, a.mapped = false)
    (run : Run clientStep allowed s actions final) :
    ∃ a ∈ final.device.pci.accesses, a.mapped = false := by
  induction run with
  | nil => exact broken
  | cons _ taken _ ih =>
    obtain ⟨a,member,unmapped⟩ := broken
    exact ih (good.keeps taken) ⟨a,(good.leaves taken).1.grow.subset member,unmapped⟩

theorem ClientSystem.refuses_run (good : Good s)
    (mapped : ∀ a ∈ final.device.pci.accesses, a.mapped = true)
    (run : Run clientStep allowed s actions final) :
    Run clientStep (fun s a => ¬Maps s a) s actions final := by
  induction run with
  | nil => exact .nil
  | cons _ taken rest ih =>
    refine .cons (fun maps => ?_) taken (ih (good.keeps taken) mapped)
    obtain ⟨a,member,unmapped⟩ := unmapped_run (good.keeps taken) (maps_unmapped good maps taken) rest
    rw [mapped a member] at unmapped
    cases unmapped

theorem ClientSystem.closed_reopens {s : ClientSystem} (good : Good s) :
    ∀ left ∈ s.device.closed, left.Released ∧ ∀ (d : VirtioDevice) (range : HeaderRange),
      d.pci = left → (d.handleOpen (some range)).1 = true := by
  intro left member
  have released := good.lawful.closed left member
  refine ⟨released,?_⟩
  rintro d range rfl
  rw [handleOpen_maps released.opened released.iomap]

/-- The registers are accessed safely in exactly the runs in which no driver ever gets the
header mapped: whenever one does, they are printed before the mapping is recorded. -/
theorem registers_safe_iff {features : BitVec 32}
    (run : Run clientStep (fun _ _ => True) (.registered features) actions s) :
    s.RegistersSafe ↔
      Run clientStep (fun s a => ¬s.Maps a) (.registered features) actions s := by
  have good := ClientSystem.good_run run
  constructor
  · intro safe
    exact ClientSystem.refuses_run ⟨(ClientSystem.registered_untouched features).lawful,nofun⟩
      safe.1 run
  · intro refusing
    have untouched := Run.keeps ClientSystem.Untouched
      (fun refuses taken untouched => untouched.keeps refuses taken) refusing
      (ClientSystem.registered_untouched features)
    refine ⟨?_,ClientSystem.closed_reopens good⟩
    rw [untouched.accesses]
    simp

def fourEntries (iomap : Option HeaderRange) : BringUp where
  iomap := iomap
  deviceStatusValue := 0
  features := 0
  segMax := 0
  allocated := true
  queue _ := ⟨4, true, 0, readyCalls 4 64, 4096⟩
  interrupts := ⟨true, false, true, true⟩
  workLoop := true
  prefAllowOffloading := false
  outputQueue := true
  attachInterface := true
  debugger := false
  populateReceiveBuffers := true
  sameInterface := true
  createMediumTable := true

def ports : HeaderRange := ⟨32, by decide, by decide⟩

theorem registers_safe_refused :
    ∃ s, Run clientStep (fun _ _ => True) (.registered 0)
      [.startBlock (fourEntries none), .startNet (fourEntries none)] s ∧ s.RegistersSafe := by
  have refuses : ∀ s : ClientSystem, ∀ a ∈ [ClientAction.startBlock (fourEntries none),
      .startNet (fourEntries none)], ¬s.Maps a := by
    rintro s a member ⟨_,_,c,opens,given⟩
    simp only [List.mem_cons,List.not_mem_nil,or_false] at member
    rcases member with rfl | rfl
    all_goals
      cases held : s.client <;> rw [held] at opens
      · obtain rfl := Option.some.inj opens
        cases given
      · cases opens
  have played : (play clientStep (fun _ _ => true)
      [.startBlock (fourEntries none), .startNet (fourEntries none)] (.registered 0)).isSome := by
    decide +kernel
  obtain ⟨s,reached⟩ := Option.isSome_iff_exists.mp played
  have run : Run clientStep (fun _ _ => True) _ _ s := run_of_play (fun _ _ _ => trivial) reached
  exact ⟨s,run,(registers_safe_iff run).mpr (run.of_actions fun a member s => refuses s a member)⟩

/-- The header is printed through a null mapping when the block driver starts, and when it
ends the device is failed a second time after the first has dropped the mapping. -/
theorem registers_unsafe_block :
    ∃ s, Run clientStep (fun _ _ => True) (.registered 0)
      [.startBlock (fourEntries (some ports)), .endDeviceOperation] s ∧
      ⟨0, none, false⟩ ∈ s.device.pci.accesses ∧
      ⟨VirtioLegacyHeaderOffset.deviceStatus, some 128, false⟩ ∈ s.device.pci.accesses ∧
      ¬s.RegistersSafe := by
  have played : (play clientStep (fun _ _ => true)
      [.startBlock (fourEntries (some ports)), .endDeviceOperation] (.registered 0)).map
      (fun s => (decide (⟨0, none, false⟩ ∈ s.device.pci.accesses),
        decide (⟨18, some 128, false⟩ ∈ s.device.pci.accesses))) = some (true, true) := by
    decide +kernel
  obtain ⟨s,reached,both⟩ := Option.map_eq_some_iff.mp played
  obtain ⟨printed,failed⟩ := Prod.mk.inj both
  refine ⟨s,run_of_play (fun _ _ _ => trivial) reached,of_decide_eq_true printed,
    of_decide_eq_true failed,?_⟩
  intro safe
  cases safe.1 _ (of_decide_eq_true printed)

end VirtioOsx
