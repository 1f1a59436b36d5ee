import Acq200.Buffers.DmaBuf
import Acq200.Probe.Registry
import Mathlib.Data.List.Nodup

/-!
# What a probe acquires and what a removal releases

`acq200_probe` acquires buffers, the region of the registers, a chrdev major,
an interrupt line and sysfs files, in `acq200_device_create` and then in
`acq200_device_init`, which has five early returns.  `acq200_remove` releases
them in calls of its own.  The model keeps the list of the kernel calls that
acquire or release something.

`remove_releases_iff` says for every outcome of the kernel calls which
resources the removal gives back with the call that matches: the major, the
region and the sysfs files, and none of the others.  `probe_releases_nothing`
says that no return of the probe gives anything back.
`probe_balanced_iff` draws the conclusion: no probe that returns is balanced.
-/

namespace Acq200.Ledger

open Acq200.Buffers
open Acq200.Probe (MAXDEV)

/-! ## Kernel calls -/

/-- The DMA buffers of a device. -/
inductive Buf
  | llhostDmaBuf
  | dmaBuf
  | bufferA
  | bufferB
  deriving Repr, DecidableEq

/-- The attributes that have a sysfs file. -/
inductive Attr
  | hostPa
  | hostLen
  | llhostPa
  | llhostLen
  | heartbeat
  | cpciSlot
  | bufferABBusyMutex
  | interruptCount
  | availableInputChannels
  | availableOutputChannels
  | buffers
  | pool
  | rchList
  | imask
  | dev
  deriving Repr, DecidableEq

/-- A kernel call that succeeded and acquires or releases something.
`freePages` is `free_pages`, which takes the address that
`__get_free_pages` gave, and `freePagesOfPage` is `__free_pages`, which takes
a `struct page`. -/
inductive KernelCall
  | dmaAllocCoherent (buf : Buf)
  | dmaFreeCoherent (buf : Buf)
  | getFreePages (buf : Buf) (order : Nat)
  | freePages (buf : Buf) (order : Nat)
  | freePagesOfPage (buf : Buf) (order : Nat)
  | dmaMapSingle (buf : Buf)
  | dmaUnmapSingle (buf : Buf)
  | requestMemRegion
  | releaseMemRegion
  | ioremapNocache
  | iounmap
  | registerChrdev (major : Int)
  | unregisterChrdev (major : Int)
  | requestIrq (irq : Nat)
  | freeIrq (irq : Nat)
  | deviceCreateFile (attr : Attr)
  | deviceRemoveFile (attr : Attr)
  deriving Repr, DecidableEq

/-! ## The outcome of the calls -/

def COMMSBUF_ORDER : Int := 12

/-- How the probe is called, and what each kernel or mailbox call answers.
`setInterrupts` and `setHostDmabuf` are the two mailbox commands. -/
structure Env where
  useInterrupts : Int
  irq : Nat
  idx : Nat
  kmallocDevice : Bool
  dmaAllocCoherent : Option Nat
  coherentPa : BitVec 32
  getFreePages : Nat → Option Nat
  dmaMapSingle : Nat → BitVec 32
  requestMemRegion : Bool
  ioremapNocache : Bool
  kmallocPool : Bool
  kmallocMappingEntries : Bool
  kmallocMappings : Bool
  kmallocHandlerEntries : Bool
  kmallocHandlers : Bool
  createFile : Attr → Bool
  pciEnableDevice : Int
  registerChrdev : Int
  requestIrq : Int
  setInterrupts : Int
  setHostDmabuf : Int
  availableChannels : Int
  classDeviceCreate : Bool

/-- The fields of `struct Acq200Device` that decide what is released. -/
structure Dev where
  irq : Nat
  llhostDmaBuf : DmaBuf
  dmaBuf : DmaBuf
  bufferA : DmaBuf
  bufferB : DmaBuf
  /-- `csr.va` is not null. -/
  csrMapped : Bool
  /-- `csr.name` is not empty. -/
  csrNamed : Bool
  hasPool : Bool
  major : Int
  usingInterrupt : Bool
  completedOnetimeSetups : Bool

/-! ## Creating and freeing a device -/

def sysfsPool : List Attr := [.pool, .rchList]

def sysfsDevice : List Attr :=
  [.hostPa, .hostLen, .llhostPa, .llhostLen, .heartbeat, .cpciSlot,
    .bufferABBusyMutex, .interruptCount, .availableInputChannels,
    .availableOutputChannels, .buffers]

def sysfsClass : List Attr := [.imask, .dev]

/-- `DEVICE_CREATE_FILE` for each attribute.  A failure is only logged. -/
def createFiles (env : Env) (attrs : List Attr) : List KernelCall :=
  (attrs.filter env.createFile).map .deviceCreateFile

def removeFiles (attrs : List Attr) : List KernelCall :=
  attrs.map .deviceRemoveFile

/-- `acq200_map_pci_memory`, whose result the caller ignores. -/
def mapPciMemory (env : Env) : List KernelCall :=
  if env.requestMemRegion then
    .requestMemRegion :: if env.ioremapNocache then [.ioremapNocache] else []
  else []

/-- `acq200_device_create`.  The answer is `none` where an assertion fires
or a null pool is written. -/
def deviceCreate (env : Env) : Option (Dev × List KernelCall) :=
  if ¬ env.kmallocDevice then none
  else if ¬ env.idx < MAXDEV then none
  else
    let llhost := allocLlhostBuf env.dmaAllocCoherent env.coherentPa
    match allocMaxBuf env.getFreePages env.dmaMapSingle COMMSBUF_ORDER with
    | none => none
    | some dmaBuf =>
      if ¬ (env.kmallocPool ∧ env.kmallocMappingEntries ∧ env.kmallocMappings ∧
          env.kmallocHandlerEntries ∧ env.kmallocHandlers) then none
      else
        some
          ({ irq := env.irq
             llhostDmaBuf := llhost
             dmaBuf := dmaBuf
             bufferA := ⟨0, none, 0⟩
             bufferB := ⟨0, none, 0⟩
             csrMapped := env.requestMemRegion && env.ioremapNocache
             csrNamed := true
             hasPool := true
             major := 0
             usingInterrupt := false
             completedOnetimeSetups := false },
           (if llhost.va.isSome then [.dmaAllocCoherent .llhostDmaBuf] else []) ++
             [.getFreePages .dmaBuf dmaBuf.order, .dmaMapSingle .dmaBuf] ++
             mapPciMemory env ++ createFiles env sysfsPool)

/-- `__kbuf_free`. -/
def kbufFree (buf : Buf) (dmaBuf : DmaBuf) : List KernelCall :=
  if dmaBuf.va.isSome then [.freePagesOfPage buf dmaBuf.order] else []

/-- `acq200_unmap_pci_memory`. -/
def unmapPciMemory (dev : Dev) : List KernelCall :=
  (if dev.csrMapped then [.iounmap] else []) ++
    if dev.csrNamed then [.releaseMemRegion] else []

/-- `acq200_device_free`. -/
def deviceFree (dev : Dev) : List KernelCall :=
  (if dev.hasPool then removeFiles sysfsPool else []) ++
    unmapPciMemory dev ++
    [.freePagesOfPage .llhostDmaBuf dev.llhostDmaBuf.order] ++
    kbufFree .dmaBuf dev.dmaBuf ++
    kbufFree .bufferA dev.bufferA ++
    kbufFree .bufferB dev.bufferB

/-! ## Probe and remove -/

/-- Interrupts are wanted and the card has a line. -/
def Env.wantsIrq (env : Env) : Prop := env.useInterrupts ≠ 0 ∧ env.irq ≠ 0

instance (env : Env) : Decidable env.wantsIrq :=
  inferInstanceAs (Decidable (_ ∧ _))

/-- The end of `acq200_device_init`, with the result to return.  The class
device is not checked, so an error pointer stops the files behind it. -/
def createSysfs (env : Env) (rc : Int) (dev : Dev) (calls : List KernelCall) :
    Option (Int × Dev × List KernelCall) :=
  if ¬ env.classDeviceCreate then none
  else
    some (rc, dev,
      calls ++ createFiles env sysfsDevice ++ createFiles env sysfsClass)

/-- `acq200_device_init` from the one-time setups on. -/
def onetimeSetups (env : Env) (rc : Int) (dev : Dev) (calls : List KernelCall) :
    Option (Int × Dev × List KernelCall) :=
  if dev.completedOnetimeSetups then createSysfs env rc dev calls
  else
    let dev' := { dev with completedOnetimeSetups := true }
    if env.setHostDmabuf ≠ 0 then some (env.setHostDmabuf, dev', calls)
    else createSysfs env env.availableChannels dev' calls

/-- `acq200_device_init`. -/
def deviceInit (env : Env) (dev : Dev) :
    Option (Int × Dev × List KernelCall) :=
  if env.pciEnableDevice ≠ 0 then some (env.pciEnableDevice, dev, [])
  else if env.registerChrdev < 0 then some (env.registerChrdev, dev, [])
  else
    let dev' := { dev with major := env.registerChrdev }
    let chrdev := [KernelCall.registerChrdev env.registerChrdev]
    if env.wantsIrq ∧ env.requestIrq ≠ 0 then
      some (env.requestIrq, dev', chrdev)
    else
      let calls := if env.wantsIrq then chrdev ++ [.requestIrq env.irq] else chrdev
      let rc := if env.wantsIrq then env.requestIrq else env.registerChrdev
      if dev.usingInterrupt ∧ env.setInterrupts ≠ 0 then
        some (env.setInterrupts, dev', calls)
      else
        onetimeSetups env (if dev.usingInterrupt then env.setInterrupts else rc)
          dev' calls

/-- `acq200_probe`, with the calls it made. -/
def probe (env : Env) : Option (Int × Dev × List KernelCall) :=
  (deviceCreate env).bind fun (dev, created) =>
    (deviceInit env dev).map fun (rc, dev', calls) =>
      (rc, dev', created ++ calls)

/-- `acq200_remove` on a device that the lookup found. -/
def remove (dev : Dev) : List KernelCall :=
  (if dev.usingInterrupt then [.freeIrq dev.irq] else []) ++
    removeFiles sysfsClass ++ removeFiles sysfsDevice ++
    [.unregisterChrdev dev.major] ++ deviceFree dev

/-! ## The ledger -/

/-- An entry of the ledger. -/
inductive Resource
  | major (major : Int)
  | irqLine (irq : Nat)
  | csrRegion
  | sysfsFile (attr : Attr)
  | pages (buf : Buf) (order : Nat)
  | dmaMapping (buf : Buf)
  | coherent (buf : Buf)
  deriving Repr, DecidableEq

def KernelCall.acquires : KernelCall → Option Resource
  | .dmaAllocCoherent buf => some (.coherent buf)
  | .getFreePages buf order => some (.pages buf order)
  | .dmaMapSingle buf => some (.dmaMapping buf)
  | .requestMemRegion => some .csrRegion
  | .registerChrdev major => some (.major major)
  | .requestIrq irq => some (.irqLine irq)
  | .deviceCreateFile attr => some (.sysfsFile attr)
  | _ => none

/-- The entry whose acquisition the call matches.  `__free_pages` matches
`alloc_pages`, which the driver does not call. -/
def KernelCall.releases : KernelCall → Option Resource
  | .dmaFreeCoherent buf => some (.coherent buf)
  | .freePages buf order => some (.pages buf order)
  | .dmaUnmapSingle buf => some (.dmaMapping buf)
  | .releaseMemRegion => some .csrRegion
  | .unregisterChrdev major => some (.major major)
  | .freeIrq irq => some (.irqLine irq)
  | .deviceRemoveFile attr => some (.sysfsFile attr)
  | _ => none

/-- How often the calls acquire the entry. -/
def acquired (calls : List KernelCall) (r : Resource) : Nat :=
  calls.countP fun c => c.acquires = some r

/-- How often the calls release the entry with the call that matches. -/
def released (calls : List KernelCall) (r : Resource) : Nat :=
  calls.countP fun c => c.releases = some r

/-- A probe that fails leaves the ledger as it was, and after one that
succeeds the removal releases once what the probe still holds. -/
def Balanced (env : Env) : Prop :=
  ∀ rc dev calls, probe env = some (rc, dev, calls) →
    (rc ≠ 0 → ∀ r, acquired calls r = released calls r) ∧
    (rc = 0 → ∀ r, released calls r < acquired calls r →
      released (remove dev) r = 1)

/-! ## When the probe does not return -/

/-- An allocation of `acq200_device_create` fails that it asserts, or the
table of devices is full. -/
def Env.createStops (env : Env) : Prop :=
  env.kmallocDevice = false ∨ MAXDEV ≤ env.idx ∨
    (∀ order ≤ 12, env.getFreePages order = none) ∨
    ¬ (env.kmallocPool ∧ env.kmallocMappingEntries ∧ env.kmallocMappings ∧
      env.kmallocHandlerEntries ∧ env.kmallocHandlers)

/-- `acq200_device_init` takes none of its early returns. -/
def Env.reachesSysfs (env : Env) : Prop :=
  env.pciEnableDevice = 0 ∧ 0 ≤ env.registerChrdev ∧
    (env.wantsIrq → env.requestIrq = 0) ∧ env.setHostDmabuf = 0

/-- The probe does not return: it stops in an assertion, on a null pool or
on the error pointer of the class device. -/
def Env.Stops (env : Env) : Prop :=
  env.createStops ∨ env.reachesSysfs ∧ env.classDeviceCreate = false

/-! ## What the calls release -/

theorem released_append (xs ys : List KernelCall) (r : Resource) :
    released (xs ++ ys) r = released xs r + released ys r := by
  simp [released]

/-- The number of calls of the removal that match an entry.  Only a major, a
region and a sysfs file are given back. -/
def removals (dev : Dev) : Resource → Nat
  | .major major => if major = dev.major then 1 else 0
  | .csrRegion => 1
  | .sysfsFile _ => 1
  | _ => 0

/-- A device that a probe has set up. -/
structure Dev.SetUp (dev : Dev) : Prop where
  noInterrupt : dev.usingInterrupt = false
  named : dev.csrNamed = true
  pool : dev.hasPool = true

theorem released_removeFiles (attrs : List Attr) (r : Resource) :
    released (removeFiles attrs) r =
      match r with
      | .sysfsFile attr => attrs.count attr
      | _ => 0 := by
  unfold released removeFiles
  induction attrs with
  | nil => cases r <;> rfl
  | cons a as ih =>
    rw [List.map_cons, List.countP_cons, ih]
    cases r with
    | sysfsFile attr => simp [KernelCall.releases, List.count_cons]
    | _ => simp [KernelCall.releases]

/-- Every sysfs file is removed by one of the three groups. -/
theorem count_sysfs (attr : Attr) :
    sysfsClass.count attr + sysfsDevice.count attr + sysfsPool.count attr = 1 := by
  cases attr <;> rfl

theorem released_kbufFree (buf : Buf) (dmaBuf : DmaBuf) (r : Resource) :
    released (kbufFree buf dmaBuf) r = 0 := by
  unfold kbufFree released
  split <;> simp [KernelCall.releases]

theorem released_unmapPciMemory {dev : Dev} (h : dev.csrNamed = true)
    (r : Resource) :
    released (unmapPciMemory dev) r = if r = .csrRegion then 1 else 0 := by
  unfold unmapPciMemory
  rw [released_append, if_pos h]
  have hmap : released (if dev.csrMapped then [.iounmap] else []) r = 0 := by
    split <;> simp [released, KernelCall.releases]
  rw [hmap]
  by_cases hr : r = .csrRegion
  · simp [released, KernelCall.releases, hr]
  · simp [released, KernelCall.releases, hr, Ne.symm hr]

theorem released_remove {dev : Dev} (h : dev.SetUp) (r : Resource) :
    released (remove dev) r = removals dev r := by
  unfold remove deviceFree
  simp only [released_append, released_removeFiles, released_kbufFree,
    released_unmapPciMemory h.named, h.noInterrupt, h.pool, if_true]
  cases r with
  | sysfsFile attr =>
    have := count_sysfs attr
    simp [released, KernelCall.releases, removals]
    omega
  | major major =>
    by_cases hm : major = dev.major
    · simp [released, KernelCall.releases, removals, hm]
    · simp [released, KernelCall.releases, removals, hm, Ne.symm hm]
  | _ => simp [released, KernelCall.releases, removals]

/-! ## What the probe does -/

theorem releases_createFiles (env : Env) (attrs : List Attr) :
    ∀ c ∈ createFiles env attrs, ∃ attr, c = .deviceCreateFile attr := by
  intro c hc
  obtain ⟨attr, -, rfl⟩ := List.mem_map.mp hc
  exact ⟨attr, rfl⟩

/-- The calls of `acq200_device_init`. -/
def InitCall (dev : Dev) (c : KernelCall) : Prop :=
  c = .registerChrdev dev.major ∨ c = .requestIrq dev.irq ∨
    ∃ attr, c = .deviceCreateFile attr

theorem InitCall.releases {dev : Dev} {c : KernelCall} (h : InitCall dev c) :
    c.releases = none := by
  rcases h with rfl | rfl | ⟨attr, rfl⟩ <;> rfl

/-- The calls of `acq200_device_create` take no major and release nothing. -/
def CreateCall (c : KernelCall) : Prop :=
  c.releases = none ∧ ∀ major, c.acquires ≠ some (.major major)

theorem createCall_mapPciMemory (env : Env) :
    ∀ c ∈ mapPciMemory env, CreateCall c := by
  intro c hc
  unfold mapPciMemory at hc
  split at hc
  · split at hc
    · simp only [List.mem_cons, List.not_mem_nil, or_false] at hc
      rcases hc with rfl | rfl <;> simp [CreateCall, KernelCall.releases,
        KernelCall.acquires]
    · simp only [List.mem_cons, List.not_mem_nil, or_false] at hc
      simp [hc, CreateCall, KernelCall.releases, KernelCall.acquires]
  · simp at hc

theorem createCall_createFiles (env : Env) (attrs : List Attr) :
    ∀ c ∈ createFiles env attrs, CreateCall c := by
  intro c hc
  obtain ⟨attr, rfl⟩ := releases_createFiles env attrs c hc
  simp [CreateCall, KernelCall.releases, KernelCall.acquires]

/-- The device that is created, and its calls. -/
theorem deviceCreate_some {env : Env} {dev : Dev} {calls : List KernelCall}
    (h : deviceCreate env = some (dev, calls)) :
    dev.SetUp ∧ dev.completedOnetimeSetups = false ∧ dev.irq = env.irq ∧
      .dmaMapSingle .dmaBuf ∈ calls ∧ ∀ c ∈ calls, CreateCall c := by
  unfold deviceCreate at h
  split at h
  · cases h
  split at h
  · cases h
  simp only at h
  split at h
  · cases h
  split at h
  · cases h
  obtain ⟨rfl, rfl⟩ := Prod.mk.inj (Option.some.inj h)
  refine ⟨⟨rfl, rfl, rfl⟩, rfl, rfl, by simp, ?_⟩
  intro c hc
  rcases List.mem_append.mp hc with hc | hc
  · rcases List.mem_append.mp hc with hc | hc
    · rcases List.mem_append.mp hc with hc | hc
      · split at hc
        · simp only [List.mem_cons, List.not_mem_nil, or_false] at hc
          simp [hc, CreateCall, KernelCall.releases, KernelCall.acquires]
        · simp at hc
      · simp only [List.mem_cons, List.not_mem_nil, or_false] at hc
        rcases hc with rfl | rfl <;>
          simp [CreateCall, KernelCall.releases, KernelCall.acquires]
    · exact createCall_mapPciMemory env c hc
  · exact createCall_createFiles env sysfsPool c hc

theorem maxBufFrom_none_iff (pages : Nat → Option Nat) (n : Nat) :
    maxBufFrom pages n = none ↔ ∀ order ≤ n, pages order = none := by
  induction n with
  | zero => simp [maxBufFrom]
  | succ n ih =>
    unfold maxBufFrom
    cases hp : pages (n + 1) with
    | some va =>
      simp only [reduceCtorEq, false_iff]
      intro h
      rw [h (n + 1) (Nat.le_refl _)] at hp
      cases hp
    | none =>
      simp only [ih]
      constructor
      · intro h order ho
        rcases Nat.lt_or_ge order (n + 1) with hlt | hge
        · exact h order (by omega)
        · rw [show order = n + 1 by omega]
          exact hp
      · intro h order ho
        exact h order (by omega)

theorem deviceCreate_none_iff (env : Env) :
    deviceCreate env = none ↔ env.createStops := by
  have hbuf : allocMaxBuf env.getFreePages env.dmaMapSingle COMMSBUF_ORDER = none ↔
      ∀ order ≤ 12, env.getFreePages order = none := by
    unfold allocMaxBuf getMaxBuf COMMSBUF_ORDER
    simp [maxBufFrom_none_iff]
  unfold deviceCreate Env.createStops
  rw [← hbuf]
  by_cases hk : env.kmallocDevice = true
  · by_cases hi : env.idx < MAXDEV
    · have hi' : ¬ MAXDEV ≤ env.idx := by omega
      cases hb : allocMaxBuf env.getFreePages env.dmaMapSingle COMMSBUF_ORDER with
      | none => simp [hk, hi]
      | some buf => simp [hk, hi, hi']
    · have hi' : MAXDEV ≤ env.idx := by omega
      simp [hk, hi, hi']
  · simp [hk]

section Init

variable {env : Env} {dev : Dev}

theorem initCall_createFiles (attrs : List Attr) :
    ∀ c ∈ createFiles env attrs, InitCall dev c := by
  intro c hc
  exact .inr (.inr (releases_createFiles env attrs c hc))

/-- The calls made before the one-time setups. -/
def Env.claims (env : Env) : List KernelCall :=
  if env.wantsIrq then
    [.registerChrdev env.registerChrdev, .requestIrq env.irq]
  else [.registerChrdev env.registerChrdev]

/-- `acq200_device_init` on a device that was just created, with the paths
that need `using_interrupt` left out. -/
theorem deviceInit_eq (hset : dev.SetUp)
    (hc : dev.completedOnetimeSetups = false) :
    deviceInit env dev =
      if env.pciEnableDevice ≠ 0 then some (env.pciEnableDevice, dev, [])
      else if env.registerChrdev < 0 then some (env.registerChrdev, dev, [])
      else if env.wantsIrq ∧ env.requestIrq ≠ 0 then
        some (env.requestIrq, { dev with major := env.registerChrdev },
          [.registerChrdev env.registerChrdev])
      else if env.setHostDmabuf ≠ 0 then
        some (env.setHostDmabuf,
          { dev with major := env.registerChrdev, completedOnetimeSetups := true },
          env.claims)
      else createSysfs env env.availableChannels
        { dev with major := env.registerChrdev, completedOnetimeSetups := true }
        env.claims := by
  unfold deviceInit onetimeSetups Env.claims
  simp [hset.noInterrupt, hc]

theorem initCall_claims (hirq : dev.irq = env.irq)
    (hmajor : dev.major = env.registerChrdev) :
    ∀ c ∈ env.claims, InitCall dev c := by
  intro c hmem
  unfold Env.claims at hmem
  unfold InitCall
  rw [hmajor, hirq]
  split at hmem
  · simp only [List.mem_cons, List.not_mem_nil, or_false] at hmem
    rcases hmem with h | h
    · exact .inl h
    · exact .inr (.inl h)
  · exact .inl (List.mem_singleton.mp hmem)

/-- Whatever it returns, `acq200_device_init` leaves a device that is set up
and has made only calls of its own. -/
theorem deviceInit_some {dev' : Dev} {rc : Int} {calls : List KernelCall}
    (hset : dev.SetUp) (hc : dev.completedOnetimeSetups = false)
    (hirq : dev.irq = env.irq) (h : deviceInit env dev = some (rc, dev', calls)) :
    dev'.SetUp ∧ ∀ c ∈ calls, InitCall dev' c := by
  rw [deviceInit_eq hset hc] at h
  split at h
  · simp only [Option.some.injEq, Prod.mk.injEq] at h
    obtain ⟨-, rfl, rfl⟩ := h
    exact ⟨hset, by simp⟩
  split at h
  · simp only [Option.some.injEq, Prod.mk.injEq] at h
    obtain ⟨-, rfl, rfl⟩ := h
    exact ⟨hset, by simp⟩
  split at h
  · simp only [Option.some.injEq, Prod.mk.injEq] at h
    obtain ⟨-, rfl, rfl⟩ := h
    exact ⟨⟨hset.noInterrupt, hset.named, hset.pool⟩, by simp [InitCall]⟩
  split at h
  · simp only [Option.some.injEq, Prod.mk.injEq] at h
    obtain ⟨-, rfl, rfl⟩ := h
    exact ⟨⟨hset.noInterrupt, hset.named, hset.pool⟩, initCall_claims hirq rfl⟩
  unfold createSysfs at h
  split at h
  · cases h
  simp only [Option.some.injEq, Prod.mk.injEq] at h
  obtain ⟨-, rfl, rfl⟩ := h
  refine ⟨⟨hset.noInterrupt, hset.named, hset.pool⟩, fun c hmem => ?_⟩
  rcases List.mem_append.mp hmem with hmem | hmem
  · rcases List.mem_append.mp hmem with hmem | hmem
    · refine initCall_claims ?_ ?_ c hmem
      · exact hirq
      · rfl
    · exact initCall_createFiles sysfsDevice c hmem
  · exact initCall_createFiles sysfsClass c hmem

theorem deviceInit_none_iff (hset : dev.SetUp)
    (hc : dev.completedOnetimeSetups = false) :
    deviceInit env dev = none ↔
      env.reachesSysfs ∧ env.classDeviceCreate = false := by
  rw [deviceInit_eq hset hc]
  unfold Env.reachesSysfs createSysfs
  by_cases hp : env.pciEnableDevice = 0
  · by_cases hm : env.registerChrdev < 0
    · have hm' : ¬ 0 ≤ env.registerChrdev := by omega
      simp [hp, hm, hm']
    · have hm' : 0 ≤ env.registerChrdev := by omega
      by_cases hi : env.wantsIrq ∧ env.requestIrq ≠ 0
      · simp [hp, hm, hi]
      · have hi' : env.wantsIrq → env.requestIrq = 0 := by
          intro hw
          by_contra hne
          exact hi ⟨hw, hne⟩
        by_cases hs : env.setHostDmabuf = 0
        · simp only [hp, hm, hm', hi, hs, ne_eq, not_true, if_false,
            true_and]
          simpa using fun _ => hi'
        · simp [hp, hm, hi, hs]
  · simp [hp]

end Init

/-! ## The balance -/

section Probe

variable {env : Env} {rc : Int} {dev : Dev} {calls : List KernelCall}

/-- A probe that returns: the device is set up, the communications buffer is
mapped, and every call is one of the two groups. -/
theorem probe_some (h : probe env = some (rc, dev, calls)) :
    dev.SetUp ∧ .dmaMapSingle .dmaBuf ∈ calls ∧
      ∀ c ∈ calls, CreateCall c ∨ InitCall dev c := by
  obtain ⟨⟨dev₀, created⟩, hcreate, hmap⟩ := Option.bind_eq_some_iff.mp h
  obtain ⟨⟨rc', dev', initCalls⟩, hinit, hres⟩ := Option.map_eq_some_iff.mp hmap
  simp only [Prod.mk.injEq] at hres
  obtain ⟨-, rfl, rfl⟩ := hres
  obtain ⟨hset, honce, hirq, hdma, hcreated⟩ := deviceCreate_some hcreate
  obtain ⟨hset', hcalls⟩ := deviceInit_some hset honce hirq hinit
  refine ⟨hset', List.mem_append_left _ hdma, fun c hc => ?_⟩
  rcases List.mem_append.mp hc with hc | hc
  · exact .inl (hcreated c hc)
  · exact .inr (hcalls c hc)

/-- No return of the probe gives anything back. -/
theorem probe_releases_nothing (h : probe env = some (rc, dev, calls))
    (r : Resource) : released calls r = 0 := by
  unfold released
  rw [List.countP_eq_zero]
  intro c hc
  have hnone : c.releases = none := by
    rcases (probe_some h).2.2 c hc with hcreate | hinit
    · exact hcreate.1
    · exact hinit.releases
  simp [hnone]

/-- Of what a probe holds, the removal gives back the major, the region and
the sysfs files, each once, and nothing else. -/
theorem remove_releases_iff (h : probe env = some (rc, dev, calls))
    {r : Resource} (hr : 0 < acquired calls r) :
    released (remove dev) r = 1 ↔
      match r with
      | .major _ => True
      | .csrRegion => True
      | .sysfsFile _ => True
      | _ => False := by
  obtain ⟨hset, -, hcalls⟩ := probe_some h
  rw [released_remove hset]
  cases r with
  | major m =>
    obtain ⟨c, hc, hacq⟩ := List.countP_pos_iff.mp hr
    have hacq' : c.acquires = some (.major m) := by simpa using hacq
    have hm : m = dev.major := by
      rcases hcalls c hc with hcreate | rfl | rfl | ⟨attr, rfl⟩
      · exact absurd hacq' (hcreate.2 m)
      · simpa [KernelCall.acquires] using hacq'.symm
      · simp [KernelCall.acquires] at hacq'
      · simp [KernelCall.acquires] at hacq'
    simp [removals, hm]
  | _ => simp [removals]

/-- The mapping of the communications buffer is in the ledger after every
probe that returns. -/
theorem dmaMapping_acquired (h : probe env = some (rc, dev, calls)) :
    0 < acquired calls (.dmaMapping .dmaBuf) := by
  refine List.countP_pos_iff.mpr ⟨_, (probe_some h).2.1, ?_⟩
  simp [KernelCall.acquires]

end Probe

theorem probe_none_iff (env : Env) : probe env = none ↔ env.Stops := by
  unfold probe Env.Stops
  rw [← deviceCreate_none_iff]
  cases hcreate : deviceCreate env with
  | none => simp
  | some p =>
    obtain ⟨hset, honce, -, -, -⟩ := deviceCreate_some hcreate
    simp [deviceInit_none_iff hset honce]

/-- No probe that returns is balanced: a probe is balanced exactly when it
stops on the way and returns nothing to balance. -/
theorem probe_balanced_iff (env : Env) : Balanced env ↔ env.Stops := by
  rw [← probe_none_iff]
  constructor
  · intro hbal
    cases h : probe env with
    | none => rfl
    | some p =>
      obtain ⟨rc, dev, calls⟩ := p
      obtain ⟨hfail, hok⟩ := hbal rc dev calls h
      have hacq := dmaMapping_acquired h
      have hrel := probe_releases_nothing h (.dmaMapping .dmaBuf)
      by_cases hrc : rc = 0
      · have hone := hok hrc (.dmaMapping .dmaBuf) (by omega)
        exact absurd ((remove_releases_iff h hacq).mp hone) (by simp)
      · have heq := hfail hrc (.dmaMapping .dmaBuf)
        omega
  · intro h rc dev calls hsome
    rw [h] at hsome
    cases hsome

/-- Every call succeeds, with interrupts in use on line 11. -/
def Env.plain : Env where
  useInterrupts := 1
  irq := 11
  idx := 0
  kmallocDevice := true
  dmaAllocCoherent := some 0xd0000000
  coherentPa := 0x10000000
  getFreePages := fun _ => some 0xd1000000
  dmaMapSingle := fun _ => 0x11000000
  requestMemRegion := true
  ioremapNocache := true
  kmallocPool := true
  kmallocMappingEntries := true
  kmallocMappings := true
  kmallocHandlerEntries := true
  kmallocHandlers := true
  createFile := fun _ => true
  pciEnableDevice := 0
  registerChrdev := 253
  requestIrq := 0
  setInterrupts := 0
  setHostDmabuf := 0
  availableChannels := 0
  classDeviceCreate := true

/-- A probe in which every call succeeds is not balanced: the removal leaves
the interrupt line requested. -/
theorem plain_probe_keeps_irq : ¬ Balanced Env.plain := by
  intro h
  cases hp : probe Env.plain with
  | none => exact absurd (congrArg Option.isSome hp) (by decide)
  | some p =>
    obtain ⟨rc, dev, calls⟩ := p
    have hrc : (probe Env.plain).map (fun p => (p.1, released p.2.2 (.irqLine 11),
      acquired p.2.2 (.irqLine 11), released (remove p.2.1) (.irqLine 11))) =
        some (0, 0, 1, 0) := by decide
    rw [hp] at hrc
    simp only [Option.map_some, Option.some.injEq, Prod.mk.injEq] at hrc
    have := (h rc dev calls hp).2 hrc.1 (.irqLine 11) (by omega)
    omega

end Acq200.Ledger
