import Mathlib.Data.List.Nodup
import Mathlib.Data.List.Pairwise
import Mathlib.Data.List.Perm.Basic
import NewCPP.Deployment.MountPoint
import NewCPP.Library.Transition

/-!
# The queue of plugged-in devices

`UsbMassStorageMonitor` queues a device at its add event, takes it from the queue at its
remove event, and gives it to the consumer, once it is mounted, in a call of `process`.

* `devices_kept` — over every run, each device is consumed at most once and only as long as
  it is plugged in, and waits in the queue until then, as far as no remove event finds another
  device first: `checkIfSameDevice` compares 255 characters of the paths.

## Design notes

**Handles.**  A `RawDevice` is the handle of one add event with the path of its device; the
handle of a remove event serves for its path only.  libudev gives a path for every handle.

**`std::partition`.**  It applies its predicate once to every element, in some order, and
leaves those that stay in some order.  `Process` admits all of them.

**The world.**  `present` are the devices that are plugged in, and `trace` is what has
happened; neither is a field of the monitor.
-/

namespace NewCPP.Deployment.UsbMassStorageMonitor

open Library Relation

/-- What the kernel reports of a device. -/
inductive Action where
  | add
  | remove
  | change
  | move
  | online
  | offline
  | bind
  | unbind
  deriving DecidableEq

/-- The word that udev sends. -/
def Action.text : Action → List Char
  | add => "add".toList
  | remove => "remove".toList
  | change => "change".toList
  | move => "move".toList
  | online => "online".toList
  | offline => "offline".toList
  | bind => "bind".toList
  | unbind => "unbind".toList

/-- A device as udev names it; `devpath` is what the monitor goes by. -/
structure RawDevice where
  dev : ℕ
  devpath : List Char
  deriving DecidableEq

/-- `strncmp` with 255 characters. -/
def RawDevice.checkIfSameDevice (otherDev item : RawDevice) : Bool :=
  decide (item.devpath.take 255 = otherDev.devpath.take 255)

/-- The queue after the event that is received, if one is. -/
def handleIncommingEvents (received : Option (Action × RawDevice))
    (delayedDevices : List RawDevice) : List RawDevice :=
  match received with
  | none => delayedDevices
  | some (action, dev) =>
      if "add".toList <+: action.text then delayedDevices ++ [dev]
      else if "remove".toList <+: action.text then
        delayedDevices.eraseP dev.checkIfSameDevice
      else delayedDevices

/-- The mount table and what udev tells, at the time when a device is looked at. -/
abbrev Environment := RawDevice → Option (List MountEntry) × UdevDevice

/-- `processed`, the result of `processDevice`. -/
def processed (environment : Environment) (device : RawDevice) : UsbMassStorage :=
  processDevice (environment device).1 (environment device).2

/-- `isMounted` found a mount point for the device. -/
def isMounted (environment : Environment) (device : RawDevice) : Bool :=
  (processed environment device).toBool

/-- A call of `process`: what the consumer gets and what stays in the queue. -/
def Process (environment : Environment) (delayedDevices : List RawDevice)
    (consumed : List (RawDevice × UsbMassStorage)) (stay : List RawDevice) : Prop :=
  (∃ visited : List RawDevice, visited.Perm delayedDevices ∧
    consumed = (visited.filter (isMounted environment)).map
      fun device => (device, processed environment device)) ∧
  stay.Perm (delayedDevices.filter fun device => !isMounted environment device)

/-! ## The world -/

/-- What the trace records. -/
inductive Entry where
  | added (device : RawDevice)
  | removed (device : RawDevice)
  | consumed (device : RawDevice) (msd : UsbMassStorage)
  deriving DecidableEq

namespace Entry

/-- The device an entry is about. -/
def device : Entry → RawDevice
  | added device => device
  | removed device => device
  | consumed device _ => device

/-- The device that the entry says was consumed, if it says so. -/
def consumed? : Entry → Option RawDevice
  | consumed device _ => some device
  | _ => none

end Entry

/-- The devices that are plugged in, those that wait for their mount, and what happened. -/
structure World where
  present : List RawDevice := []
  delayedDevices : List RawDevice := []
  trace : List Entry := []
  deriving DecidableEq

namespace World

/-- The devices that were passed to the consumer, in order. -/
def consumed (world : World) : List RawDevice :=
  world.trace.filterMap Entry.consumed?

/-- A device event of the kernel, as the monitor and the trace see it. -/
def receive (world : World) (received : Option (Action × RawDevice)) : World :=
  let delayedDevices := handleIncommingEvents received world.delayedDevices
  match received with
  | some (.add, dev) =>
      { present := world.present ++ [dev], delayedDevices,
        trace := world.trace ++ [.added dev] }
  | some (.remove, dev) =>
      { present := world.present.filter fun device => device.devpath ≠ dev.devpath,
        delayedDevices,
        trace := world.trace ++
          (world.present.filter fun device => device.devpath = dev.devpath).map .removed }
  | _ => { world with delayedDevices }

/-- An added device has a path that no other present one has, and a handle of its own. -/
structure Fresh (world : World) (dev : RawDevice) : Prop where
  devpath : ∀ device ∈ world.present, device.devpath ≠ dev.devpath
  handle : ∀ entry ∈ world.trace, entry.device ≠ dev

end World

/-- What makes a step: an event of the kernel, or a call of `process`. -/
inductive Label where
  | receive (received : Option (Action × RawDevice))
  | process (environment : Environment)

/-- One step.  A device that is added is none of those plugged in or waiting. -/
inductive Step (world : World) : Label → World → Prop
  | receive (received : Option (Action × RawDevice))
      (hfresh : ∀ dev, received = some (.add, dev) → world.Fresh dev) :
      Step world (.receive received) (world.receive received)
  | process (environment : Environment) (consumed : List (RawDevice × UsbMassStorage))
      (stay : List RawDevice)
      (hprocess : Process environment world.delayedDevices consumed stay) :
      Step world (.process environment)
        { world with
          delayedDevices := stay
          trace := world.trace ++ consumed.map fun item => .consumed item.1 item.2 }

/-- Each device is consumed once at most, after its add event and before its remove event,
and is in the queue as long as neither has happened. -/
structure Kept (world : World) : Prop where
  once : world.consumed.Nodup
  whilePresent : ∀ before device msd after,
    world.trace = before ++ .consumed device msd :: after →
      .added device ∈ before ∧ .removed device ∉ before
  queued : ∀ device, .added device ∈ world.trace → .removed device ∉ world.trace →
    device ∉ world.consumed → device ∈ world.delayedDevices

/-- A remove event finds the removed device first, if it finds one in the queue. -/
def FindsRemoved (world : World) : Label → Prop
  | .receive (some (.remove, dev)) =>
      ∀ device ∈ world.delayedDevices.find? dev.checkIfSameDevice,
        device.devpath = dev.devpath
  | _ => True

/-! ## The queue -/

/-- Devices with one path are the same to the monitor. -/
theorem checkIfSameDevice_of_devpath_eq {dev item : RawDevice}
    (h : item.devpath = dev.devpath) : dev.checkIfSameDevice item := by
  rw [RawDevice.checkIfSameDevice, h, decide_eq_true_eq]

theorem handleIncommingEvents_add (dev : RawDevice) (queue : List RawDevice) :
    handleIncommingEvents (some (.add, dev)) queue = queue ++ [dev] := rfl

theorem handleIncommingEvents_remove (dev : RawDevice) (queue : List RawDevice) :
    handleIncommingEvents (some (.remove, dev)) queue =
      queue.eraseP dev.checkIfSameDevice := rfl

/-- The removed device leaves the queue, and no other. -/
theorem eraseP_eq_filter {dev : RawDevice} {queue : List RawDevice}
    (hdistinct : queue.Pairwise (·.devpath ≠ ·.devpath))
    (hfinds : ∀ device ∈ queue.find? dev.checkIfSameDevice, device.devpath = dev.devpath) :
    queue.eraseP dev.checkIfSameDevice =
      queue.filter fun device => device.devpath ≠ dev.devpath := by
  induction queue with
  | nil => rfl
  | cons item queue ih =>
      obtain ⟨hitem, hqueue⟩ := List.pairwise_cons.1 hdistinct
      by_cases hsame : dev.checkIfSameDevice item
      · have hpath := hfinds item (List.find?_cons_of_pos hsame)
        have hall : ∀ device ∈ queue, decide (device.devpath ≠ dev.devpath) = true := by
          intro device hmem
          exact decide_eq_true (hpath ▸ (hitem device hmem).symm)
        rw [List.eraseP_cons_of_pos hsame, List.filter_cons_of_neg (by simpa using hpath),
          List.filter_eq_self.2 hall]
      · have hpath : item.devpath ≠ dev.devpath :=
          fun heq => hsame (checkIfSameDevice_of_devpath_eq heq)
        rw [List.find?_cons_of_neg hsame] at hfinds
        rw [List.eraseP_cons_of_neg hsame, List.filter_cons_of_pos (by simpa using hpath),
          ih hqueue hfinds]

/-! ## The invariant -/

/-- The queue holds the present devices that have not been consumed. -/
structure Inv (world : World) : Prop where
  distinct : world.present.Pairwise (·.devpath ≠ ·.devpath)
  present_iff : ∀ device, device ∈ world.present ↔
    .added device ∈ world.trace ∧ .removed device ∉ world.trace
  queue_nodup : world.delayedDevices.Nodup
  queue_iff : ∀ device, device ∈ world.delayedDevices ↔
    device ∈ world.present ∧ device ∉ world.consumed
  once : world.consumed.Nodup
  whilePresent : ∀ before device msd after,
    world.trace = before ++ .consumed device msd :: after →
      .added device ∈ before ∧ .removed device ∉ before

/-- At the beginning there is no device. -/
theorem inv_init : Inv {} := by
  refine ⟨List.Pairwise.nil, fun _ => by simp, List.nodup_nil, fun _ => by simp,
    List.nodup_nil, fun before _ _ _ h => ?_⟩
  exact absurd h.symm (List.append_ne_nil_of_right_ne_nil _ (List.cons_ne_nil _ _))

/-- The invariant is strong enough. -/
theorem Inv.kept {world : World} (h : Inv world) : Kept world := by
  refine ⟨h.once, h.whilePresent, fun device hadded hremoved hconsumed => ?_⟩
  exact (h.queue_iff device).2 ⟨(h.present_iff device).2 ⟨hadded, hremoved⟩, hconsumed⟩

/-- Devices in the queue have different paths. -/
theorem Inv.queue_distinct {world : World} (h : Inv world) :
    world.delayedDevices.Pairwise (·.devpath ≠ ·.devpath) := by
  have : Std.Symm fun a b : RawDevice => a.devpath ≠ b.devpath := ⟨fun _ _ hab => hab.symm⟩
  refine h.queue_nodup.imp_of_mem fun {a b} ha hb hne => ?_
  exact h.distinct.forall ((h.queue_iff a).1 ha).1 ((h.queue_iff b).1 hb).1 hne

/-- Entries that consume nothing have no part in what is said about consumption. -/
theorem whilePresent_append {trace entries : List Entry}
    (h : ∀ before device msd after, trace = before ++ .consumed device msd :: after →
      .added device ∈ before ∧ .removed device ∉ before)
    (hentries : ∀ device msd, .consumed device msd ∈ entries →
      .added device ∈ trace ∧ .removed device ∉ trace)
    (hremoved : ∀ device, .removed device ∈ entries →
      ∀ device msd, .consumed device msd ∉ entries)
    (before : List Entry) (device : RawDevice) (msd : UsbMassStorage) (after : List Entry)
    (heq : trace ++ entries = before ++ .consumed device msd :: after) :
    .added device ∈ before ∧ .removed device ∉ before := by
  rcases List.append_eq_append_iff.1 heq with ⟨rest, rfl, hrest⟩ | ⟨rest, rfl, hrest⟩
  · -- the entry is a new one
    have hmem : Entry.consumed device msd ∈ entries := by
      rw [hrest]
      exact List.mem_append_right _ List.mem_cons_self
    obtain ⟨hadded, hnot⟩ := hentries device msd hmem
    refine ⟨List.mem_append_left _ hadded, fun hmem' => ?_⟩
    rcases List.mem_append.1 hmem' with hold | hnew
    · exact hnot hold
    · exact hremoved device (hrest ▸ List.mem_append_left _ hnew) device msd hmem
  · cases rest with
    | nil =>
        -- the entry is the first of the new ones
        rw [List.nil_append] at hrest
        have hmem : Entry.consumed device msd ∈ entries := hrest ▸ List.mem_cons_self
        simpa using hentries device msd hmem
    | cons entry rest =>
        obtain ⟨rfl, -⟩ := List.cons.inj hrest
        exact h before device msd rest rfl

theorem World.mem_consumed {world : World} {device : RawDevice} :
    device ∈ world.consumed ↔ ∃ msd, .consumed device msd ∈ world.trace := by
  rw [World.consumed, List.mem_filterMap]
  constructor
  · rintro ⟨entry, hmem, heq⟩
    cases entry with
    | consumed device msd =>
        cases heq
        exact ⟨msd, hmem⟩
    | _ => cases heq
  · rintro ⟨msd, hmem⟩
    exact ⟨_, hmem, rfl⟩

/-- A device is plugged in. -/
theorem Inv.add {world : World} (h : Inv world) {dev : RawDevice} (hfresh : world.Fresh dev) :
    Inv (world.receive (some (.add, dev))) := by
  have hadded : .added dev ∉ world.trace := fun hmem => hfresh.handle _ hmem rfl
  have hremoved : .removed dev ∉ world.trace := fun hmem => hfresh.handle _ hmem rfl
  have hconsumed : dev ∉ world.consumed := by
    intro hmem
    obtain ⟨msd, hmem⟩ := World.mem_consumed.1 hmem
    exact hfresh.handle _ hmem rfl
  have hpresent : dev ∉ world.present := fun hmem => hadded ((h.present_iff dev).1 hmem).1
  have hqueue : dev ∉ world.delayedDevices := fun hmem => hpresent ((h.queue_iff dev).1 hmem).1
  have heq : (world.receive (some (.add, dev))).consumed = world.consumed := by
    simp [World.consumed, World.receive, Entry.consumed?]
  refine ⟨?_, fun device => ?_, ?_, fun device => ?_, heq ▸ h.once, ?_⟩
  · refine List.pairwise_append.2 ⟨h.distinct, List.pairwise_singleton _ _, ?_⟩
    intro device hmem _ hdev
    exact List.mem_singleton.1 hdev ▸ hfresh.devpath device hmem
  · simp only [World.receive, List.mem_append, List.mem_singleton, h.present_iff,
      Entry.added.injEq, reduceCtorEq, or_false]
    constructor
    · rintro (⟨hold, hnot⟩ | rfl)
      · exact ⟨Or.inl hold, hnot⟩
      · exact ⟨Or.inr rfl, hremoved⟩
    · rintro ⟨hold | rfl, hnot⟩
      · exact Or.inl ⟨hold, hnot⟩
      · exact Or.inr rfl
  · exact List.nodup_append.2 ⟨h.queue_nodup, List.nodup_singleton _, fun device hmem _ hdev =>
      fun heq => hqueue (List.mem_singleton.1 hdev ▸ heq ▸ hmem)⟩
  · rw [heq]
    simp only [World.receive, handleIncommingEvents_add, List.mem_append, List.mem_singleton,
      h.queue_iff]
    constructor
    · rintro (⟨hmem, hnot⟩ | rfl)
      · exact ⟨Or.inl hmem, hnot⟩
      · exact ⟨Or.inr rfl, hconsumed⟩
    · rintro ⟨hmem | rfl, hnot⟩
      · exact Or.inl ⟨hmem, hnot⟩
      · exact Or.inr rfl
  · exact whilePresent_append h.whilePresent (by simp) (by simp)

/-- A device is pulled out that the monitor can find. -/
theorem Inv.remove {world : World} (h : Inv world) {dev : RawDevice}
    (hfinds : FindsRemoved world (.receive (some (.remove, dev)))) :
    Inv (world.receive (some (.remove, dev))) := by
  have hqueue := eraseP_eq_filter h.queue_distinct hfinds
  have heq : (world.receive (some (.remove, dev))).consumed = world.consumed := by
    simp [World.consumed, World.receive, List.filterMap_map, Function.comp_def,
      Entry.consumed?]
  refine ⟨h.distinct.filter _, fun device => ?_, ?_, fun device => ?_, heq ▸ h.once, ?_⟩
  · simp only [World.receive, List.mem_filter, List.mem_append, List.mem_map, h.present_iff,
      decide_eq_true_eq, Entry.removed.injEq, exists_eq_right, reduceCtorEq, and_false,
      exists_false, or_false]
    tauto
  · rw [World.receive]
    simp only [handleIncommingEvents_remove, hqueue]
    exact h.queue_nodup.filter _
  · rw [heq]
    simp only [World.receive, handleIncommingEvents_remove, hqueue, List.mem_filter,
      h.queue_iff]
    tauto
  · exact whilePresent_append h.whilePresent (by simp) (by simp)

/-- All other actions leave everything as it is. -/
theorem receive_other {world : World} {action : Action} (hadd : action ≠ .add)
    (hremove : action ≠ .remove) (dev : RawDevice) :
    world.receive (some (action, dev)) = world := by
  cases action with
  | add => exact absurd rfl hadd
  | remove => exact absurd rfl hremove
  | _ => rfl

/-- A call of `process`. -/
theorem Inv.process {world : World} (h : Inv world) {environment : Environment}
    {consumed : List (RawDevice × UsbMassStorage)} {stay : List RawDevice}
    (hprocess : Process environment world.delayedDevices consumed stay) :
    Inv { world with
      delayedDevices := stay
      trace := world.trace ++ consumed.map fun item => .consumed item.1 item.2 } := by
  obtain ⟨⟨visited, hvisited, rfl⟩, hstay⟩ := hprocess
  rw [List.map_map]
  have hmem (device : RawDevice) : device ∈ visited.filter (isMounted environment) ↔
      (device ∈ world.present ∧ device ∉ world.consumed) ∧ isMounted environment device := by
    rw [List.mem_filter, hvisited.mem_iff, h.queue_iff]
  have heq : World.consumed { world with
      delayedDevices := stay
      trace := world.trace ++ (visited.filter (isMounted environment)).map
        ((fun item => .consumed item.1 item.2) ∘
          fun device => (device, processed environment device)) } =
      world.consumed ++ visited.filter (isMounted environment) := by
    simp [World.consumed, List.filterMap_map, Function.comp_def, Entry.consumed?]
  refine ⟨h.distinct, fun device => ?_, ?_, fun device => ?_, ?_, ?_⟩
  · simp [h.present_iff]
  · exact hstay.nodup_iff.2 (h.queue_nodup.filter _)
  · rw [heq, hstay.mem_iff, List.mem_filter, h.queue_iff, List.mem_append, hmem,
      Bool.not_eq_true']
    cases isMounted environment device with
    | false => simp
    | true => simpa using And.intro
  · rw [heq]
    refine List.nodup_append.2 ⟨h.once, (hvisited.nodup_iff.2 h.queue_nodup).filter _, ?_⟩
    rintro device hold _ hnew rfl
    exact ((hmem device).1 hnew).1.2 hold
  · refine whilePresent_append h.whilePresent (fun device msd hnew => ?_) (by simp)
    obtain ⟨device', hdevice', heq'⟩ := List.mem_map.1 hnew
    obtain ⟨rfl, -⟩ := Entry.consumed.inj heq'
    exact (h.present_iff device').1 ((hmem device').1 hdevice').1.1

/-- Every step keeps it. -/
theorem inv_step {world world' : World} {label : Label} (h : Inv world)
    (hfinds : FindsRemoved world label) (hstep : Step world label world') : Inv world' := by
  cases hstep with
  | process environment consumed stay hprocess => exact h.process hprocess
  | receive received hfresh =>
      match received with
      | none => exact h
      | some (action, dev) =>
          by_cases hadd : action = .add
          · subst hadd
            exact h.add (hfresh dev rfl)
          by_cases hremove : action = .remove
          · subst hremove
            exact h.remove hfinds
          rw [receive_other hadd hremove]
          exact h

/-- **Devices are processed once, while they are there, and are not lost.** -/
theorem devices_kept {world : World}
    (hrun : ReflTransGen (Transition.labelled Step FindsRemoved) {} world) : Kept world :=
  (Transition.invariant_of_labelled_run (I := Inv) inv_step inv_init hrun).kept

/-- Two devices are plugged in; one is removed before it was processed, and the other, which is
mounted, is consumed. -/
theorem devices_kept_pluggedIn :
    Kept
      { present := [⟨0, ['1']⟩]
        trace := [.added ⟨0, ['1']⟩, .added ⟨1, ['2']⟩, .removed ⟨1, ['2']⟩,
          .consumed ⟨0, ['1']⟩
            ⟨"/media/a".toList, "/dev/sda".toList, "dead".toList, "beef".toList⟩] } := by
  let environment : Environment := fun _ =>
    (some [⟨"/dev/sda1".toList, "/media/a".toList⟩],
      ⟨some "/dev/sda".toList, true, some ("dead".toList, "beef".toList)⟩)
  let first : RawDevice := ⟨0, ['1']⟩
  let second : RawDevice := ⟨1, ['2']⟩
  let queued : World :=
    { present := [first], delayedDevices := [first], trace := [.added first] }
  let both : World :=
    { present := [first, second]
      delayedDevices := [first, second]
      trace := [.added first, .added second] }
  let removed : World :=
    { present := [first]
      delayedDevices := [first]
      trace := [.added first, .added second, .removed second] }
  have hfirst : Step {} (.receive (some (.add, first))) queued := by
    refine .receive _ fun dev hdev => ?_
    cases hdev
    exact ⟨by decide, by decide⟩
  have hsecond : Step queued (.receive (some (.add, second))) both := by
    refine .receive _ fun dev hdev => ?_
    cases hdev
    exact ⟨by decide, by decide⟩
  have hremove : Step both (.receive (some (.remove, second))) removed :=
    .receive _ (by rintro _ ⟨⟩)
  -- the search passes the first device and finds the one that was removed
  have hfinds : FindsRemoved both (.receive (some (.remove, second))) := by
    rintro device ⟨⟩
    rfl
  have hprocess : Step removed (.process environment) _ :=
    .process environment [(first, processed environment first)] [] ⟨⟨[first], .rfl, rfl⟩, .rfl⟩
  have hplugged : ReflTransGen (Transition.labelled Step FindsRemoved) {} both :=
    .tail (.tail .refl ⟨.receive (some (.add, first)), trivial, hfirst⟩)
      ⟨.receive (some (.add, second)), trivial, hsecond⟩
  exact devices_kept (.tail (.tail hplugged ⟨.receive (some (.remove, second)), hfinds, hremove⟩)
    ⟨.process environment, trivial, hprocess⟩)

/-- Two paths that agree in the first 255 characters. -/
theorem not_devices_kept_longPaths :
    ¬∀ world, ReflTransGen (Transition.labelled Step fun _ _ => True) {} world →
      Kept world := by
  intro h
  obtain ⟨front, hfront⟩ : ∃ front : List Char, front.length = 255 :=
    ⟨List.replicate 255 'x', List.length_replicate⟩
  let first : RawDevice := ⟨0, front ++ ['1']⟩
  let second : RawDevice := ⟨1, front ++ ['2']⟩
  let world₁ := World.receive {} (some (.add, first))
  let world₂ := world₁.receive (some (.add, second))
  have hfirst : Step {} (.receive (some (.add, first))) world₁ := .receive _ fun dev hdev => by
    cases hdev
    exact ⟨by simp, by simp⟩
  have hsecond : Step world₁ (.receive (some (.add, second))) world₂ :=
    .receive _ fun dev hdev => by
      cases hdev
      exact ⟨by simp [world₁, World.receive, first, second],
        by simp [world₁, World.receive, Entry.device, first, second]⟩
  have hremove : Step world₂ (.receive (some (.remove, second))) _ := .receive _ (by simp)
  have hkept := h _ (.tail (.tail (.tail .refl ⟨_, trivial, hfirst⟩) ⟨_, trivial, hsecond⟩)
    ⟨_, trivial, hremove⟩)
  -- the first device is neither removed nor consumed
  have hqueued := hkept.queued first
  simp [world₁, world₂, World.receive, World.consumed, Entry.consumed?,
    handleIncommingEvents_add, handleIncommingEvents_remove, RawDevice.checkIfSameDevice,
    first, second, List.take_left' hfront] at hqueued

end NewCPP.Deployment.UsbMassStorageMonitor
