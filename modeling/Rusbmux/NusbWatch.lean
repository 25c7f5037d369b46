import Rusbmux.PollingStream

/-! The ids that `watch_usb` of src/usb_backend/nusb.rs announces and takes back. -/
namespace Rusbmux

structure NusbDevice (DeviceId : Type) where
  id : DeviceId
  vendorId : UInt16
  deriving DecidableEq, Repr

def NusbDevice.isApple {DeviceId : Type} (dev : NusbDevice DeviceId) : Bool :=
  dev.vendorId == APPLE_VID

inductive HotplugEvent (DeviceId : Type) where
  | connected (dev : NusbDevice DeviceId)
  | disconnected (id : DeviceId)
  deriving DecidableEq, Repr

/-- Where `watch_usb` stands: before the subscription, before its stream lists
the devices, or behind that, with listed devices still to be announced. -/
inductive NusbPhase (DeviceId : Type) where
  | idle
  | subscribed
  | watching (listed : List (NusbDevice DeviceId))
  deriving DecidableEq, Repr

/-- The bus and `watch_usb`. `subscribedTo` has the devices on the bus when the
subscription began, `departed` the ids of the devices whose departure has come
to the stream. -/
structure NusbWatch (DeviceId : Type) where
  bus : List (NusbDevice DeviceId)
  subscribedTo : List DeviceId
  hotplug : List (HotplugEvent DeviceId)
  phase : NusbPhase DeviceId
  devicesIdMap : KeyTable UInt64 UInt64
  counter : DeviceIdCounter
  events : List (IdEvent UInt64 UInt64)
  departed : List UInt64

namespace NusbWatch

variable {DeviceId : Type}

inductive Action (DeviceId : Type) where
  | arrive (dev : NusbDevice DeviceId)
  | leave (id : DeviceId)
  | subscribe
  /-- `list_devices`, which returns no device when nusb fails. -/
  | list (devices : Option (List (NusbDevice DeviceId)))
  /-- The next device that was listed is announced. -/
  | announce
  /-- The next hotplug event is taken. -/
  | take
  | takeElsewhere

def start : NusbWatch DeviceId :=
  ⟨[], [], [], .idle, KeyTable.empty, .start, [], []⟩

variable (hashId : DeviceId → UInt64)

/-- `opaque_id`. -/
def opaqueId (dev : NusbDevice DeviceId) : UInt64 := hashId dev.id

/-- The subscription hears of the bus from when it began. -/
def notify (s : NusbWatch DeviceId) (e : HotplugEvent DeviceId) : NusbWatch DeviceId :=
  match s.phase with
  | .idle => s
  | _ => { s with hotplug := s.hotplug ++ [e] }

def connect (s : NusbWatch DeviceId) (dev : NusbDevice DeviceId) : NusbWatch DeviceId :=
  let (id, counter) := s.counter.takeNewId
  { s with
    counter := counter
    devicesIdMap := s.devicesIdMap.insert (opaqueId hashId dev) id
    events := s.events ++ [.connected (opaqueId hashId dev) id] }

def handle (s : NusbWatch DeviceId) : HotplugEvent DeviceId → NusbWatch DeviceId
  -- the stream leaves out what is not an Apple device
  | .connected dev => if dev.isApple then s.connect hashId dev else s
  | .disconnected deviceId =>
    let s := { s with departed := s.departed ++ IdLog.idsOf s.events (hashId deviceId) }
    match s.devicesIdMap.get (hashId deviceId) with
    | some id => { s with
        devicesIdMap := s.devicesIdMap.remove (hashId deviceId)
        events := s.events ++ [.disconnected id] }
    | none => s

def step [DecidableEq DeviceId] (s : NusbWatch DeviceId) :
    Action DeviceId → Option (NusbWatch DeviceId)
  | .arrive dev =>
    if ∃ d ∈ s.bus, d.id = dev.id then none
    else some ({ s with bus := s.bus ++ [dev] }.notify (.connected dev))
  | .leave id =>
    if ∃ d ∈ s.bus, d.id = id then
      some ({ s with bus := s.bus.filter fun d => d.id ≠ id }.notify (.disconnected id))
    else none
  | .subscribe => match s.phase with
    | .idle => some { s with phase := .subscribed, subscribedTo := s.bus.map NusbDevice.id }
    | _ => none
  | .list devices => match s.phase, devices with
    | .subscribed, none => some { s with phase := .watching [] }
    | .subscribed, some devices =>
      if devices.Perm s.bus then
        some { s with phase := .watching (devices.filter NusbDevice.isApple) }
      else none
    | _, _ => none
  | .announce => match s.phase with
    | .watching (dev :: listed) => some ({ s with phase := .watching listed }.connect hashId dev)
    | _ => none
  | .take => match s.phase, s.hotplug with
    | .watching [], e :: hotplug => some ({ s with hotplug := hotplug }.handle hashId e)
    | _, _ => none
  | .takeElsewhere => some { s with counter := s.counter.takeNewId.2 }

/-- Of the devices that are listed, none came after the subscription; no two
devices on the bus have one opaque id; and an id was not announced before. -/
def ListsSubscribed (s : NusbWatch DeviceId) : Action DeviceId → Prop
  | .arrive dev => ∀ d ∈ s.bus, hashId d.id ≠ hashId dev.id
  | .list (some devices) => ∀ dev ∈ devices, dev.isApple → dev.id ∈ s.subscribedTo
  | .announce | .take => s.counter.value ∉ IdLog.ids s.events
  | _ => True

instance decidableListsSubscribed [DecidableEq DeviceId] (s : NusbWatch DeviceId) :
    ∀ a, Decidable (ListsSubscribed hashId s a)
  | .arrive dev => inferInstanceAs (Decidable (∀ d ∈ s.bus, hashId d.id ≠ hashId dev.id))
  | .list (some devices) =>
    inferInstanceAs (Decidable (∀ dev ∈ devices, dev.isApple → dev.id ∈ s.subscribedTo))
  | .announce | .take => inferInstanceAs (Decidable (s.counter.value ∉ IdLog.ids s.events))
  | .list none | .leave _ | .subscribe | .takeElsewhere => .isTrue trivial

/-- The ids of departed devices are taken back, each once, and a device is not
announced under a second id. -/
def Paired (s : NusbWatch DeviceId) : Prop := IdLog.Paired s.events s.departed

/-- What a hotplug event tells of the devices with an opaque id. -/
def about (k : UInt64) : HotplugEvent DeviceId → Option Bool
  | .connected dev => if dev.isApple ∧ hashId dev.id = k then some true else none
  | .disconnected id => if hashId id = k then some false else none

/-- News of one opaque id: a device comes only where there is none. Before them
there was one if `before`, and behind them there is one at most if `after`. -/
def Alternates (before after : Prop) : List Bool → Prop
  | [] => before → after
  | true :: news => ¬ before ∧ Alternates True after news
  | false :: news => Alternates False after news

theorem Alternates.mono {before before' after after' : Prop} {news : List Bool}
    (h : Alternates before after news) (hb : before' → before) (ha : after → after') :
    Alternates before' after' news := by
  induction news generalizing before before' with
  | nil => exact fun h' => ha (h (hb h'))
  | cons b news ih =>
    cases b with
    | true => exact ⟨fun h' => h.1 (hb h'), ih h.2 id⟩
    | false => exact ih h (fun hf => hf)

theorem Alternates.arrive {before after : Prop} {news : List Bool}
    (h : Alternates before after news) (ha : ¬ after) :
    Alternates before True (news ++ [true]) := by
  induction news generalizing before with
  | nil => exact ⟨fun hb => ha (h hb), fun _ => trivial⟩
  | cons b news ih =>
    cases b with
    | true => exact ⟨h.1, ih h.2⟩
    | false => exact ih h

theorem Alternates.leave {before after : Prop} {news : List Bool}
    (h : Alternates before after news) : Alternates before False (news ++ [false]) := by
  induction news generalizing before with
  | nil => exact id
  | cons b news ih =>
    cases b with
    | true => exact ⟨h.1, ih h.2⟩
    | false => exact ih h

/-- Some device on the bus has the opaque id. -/
def OnBus (bus : List (NusbDevice DeviceId)) (k : UInt64) : Prop := ∃ dev ∈ bus, hashId dev.id = k

/-- There is, or will be, an id for the device before the hotplug events are taken. -/
def Standing (s : NusbWatch DeviceId) (k : UInt64) : Prop :=
  match s.phase with
  | .idle => False
  | .subscribed => ∃ id ∈ s.subscribedTo, hashId id = k
  | .watching listed => (s.devicesIdMap.get k).isSome ∨ k ∈ listed.map (opaqueId hashId)

structure PairedInv (s : NusbWatch DeviceId) : Prop where
  bus : (s.bus.map (opaqueId hashId)).Nodup
  paired : IdLog.Paired s.events s.departed
  holds : IdLog.Holds s.devicesIdMap s.events
  quiet : s.phase = .idle → s.hotplug = []
  heard : ∀ k, Alternates (Standing hashId s k) (OnBus hashId s.bus k)
    (s.hotplug.filterMap (about hashId k))
  unlisted : (∀ listed, s.phase ≠ .watching listed) → ∀ k, s.devicesIdMap.get k = none
  listed : ∀ listed, s.phase = .watching listed → (listed.map (opaqueId hashId)).Nodup ∧
    ∀ dev ∈ listed, s.devicesIdMap.get (opaqueId hashId dev) = none

variable {hashId : DeviceId → UInt64}

theorem pairedInv_start : PairedInv hashId (start : NusbWatch DeviceId) where
  bus := List.nodup_nil
  paired := IdLog.paired_nil
  holds := IdLog.holds_empty
  quiet _ := rfl
  heard _ := False.elim
  unlisted _ _ := rfl
  listed := nofun

section Bus

variable {standing : UInt64 → Prop} {bus : List (NusbDevice DeviceId)}
  {hotplug : List (HotplugEvent DeviceId)}

theorem heard_arrive {dev : NusbDevice DeviceId}
    (h : ∀ k, Alternates (standing k) (OnBus hashId bus k) (hotplug.filterMap (about hashId k)))
    (hnew : ∀ d ∈ bus, hashId d.id ≠ hashId dev.id) (k : UInt64) :
    Alternates (standing k) (OnBus hashId (bus ++ [dev]) k)
      ((hotplug ++ [HotplugEvent.connected dev]).filterMap (about hashId k)) := by
  rw [List.filterMap_append]
  by_cases hnews : dev.isApple ∧ hashId dev.id = k
  · have hone : [HotplugEvent.connected dev].filterMap (about hashId k) = [true] := by
      simp only [List.filterMap_cons, about, if_pos hnews, List.filterMap_nil]
    have hnone : ¬ OnBus hashId bus k := by
      rintro ⟨d, hd, hk⟩
      exact hnew d hd (hk.trans hnews.2.symm)
    rw [hone]
    exact ((h k).arrive hnone).mono id fun _ =>
      ⟨dev, List.mem_append_right _ List.mem_cons_self, hnews.2⟩
  · have hnil : [HotplugEvent.connected dev].filterMap (about hashId k) = [] := by
      simp only [List.filterMap_cons, about, if_neg hnews, List.filterMap_nil]
    rw [hnil, List.append_nil]
    exact (h k).mono id fun ⟨d, hd, hk⟩ => ⟨d, List.mem_append_left _ hd, hk⟩

theorem heard_leave [DecidableEq DeviceId] {id : DeviceId}
    (h : ∀ k, Alternates (standing k) (OnBus hashId bus k) (hotplug.filterMap (about hashId k)))
    (k : UInt64) :
    Alternates (standing k) (OnBus hashId (bus.filter fun d => d.id ≠ id) k)
      ((hotplug ++ [HotplugEvent.disconnected id]).filterMap (about hashId k)) := by
  rw [List.filterMap_append]
  by_cases hk : hashId id = k
  · have hone : [HotplugEvent.disconnected id].filterMap (about hashId k) = [false] := by
      simp only [List.filterMap_cons, about, if_pos hk, List.filterMap_nil]
    rw [hone]
    exact (h k).leave.mono (fun hs => hs) False.elim
  · have hnil : [HotplugEvent.disconnected id].filterMap (about hashId k) = [] := by
      simp only [List.filterMap_cons, about, if_neg hk, List.filterMap_nil]
    rw [hnil, List.append_nil]
    refine (h k).mono (fun hs => hs) ?_
    rintro ⟨d, hd, rfl⟩
    refine ⟨d, List.mem_filter.mpr ⟨hd, decide_eq_true ?_⟩, rfl⟩
    rintro rfl
    exact hk rfl

end Bus

variable {s t : NusbWatch DeviceId} {a : Action DeviceId}

theorem PairedInv.notOpen (h : PairedInv hashId s) {k : UInt64} (hk : s.devicesIdMap.get k = none)
    (id : UInt64) : ¬ IdLog.Open s.events k id := by
  intro ho
  rw [(h.holds k id).mpr ho] at hk
  cases hk

/-- A device is announced that no id stands for. -/
theorem PairedInv.connect (h : PairedInv hashId s)
    (hfresh : s.counter.value ∉ IdLog.ids s.events) {dev : NusbDevice DeviceId}
    (hnone : s.devicesIdMap.get (opaqueId hashId dev) = none) :
    IdLog.Paired (s.connect hashId dev).events (s.connect hashId dev).departed ∧
      IdLog.Holds (s.connect hashId dev).devicesIdMap (s.connect hashId dev).events :=
  ⟨h.paired.connect (h.notOpen hnone) hfresh, h.holds.connect h.paired.sound hnone hfresh⟩

/-- The bus changes, and the subscription hears of it. -/
theorem PairedInv.change (h : PairedInv hashId s) {bus : List (NusbDevice DeviceId)}
    {e : HotplugEvent DeviceId} (hbus : (bus.map (opaqueId hashId)).Nodup)
    (hheard : ∀ k, Alternates (Standing hashId s k) (OnBus hashId bus k)
      ((s.hotplug ++ [e]).filterMap (about hashId k))) :
    PairedInv hashId ({ s with bus := bus }.notify e) := by
  by_cases hphase : s.phase = .idle
  · -- before the subscription no event is kept, and nothing stands
    have hnotify : { s with bus := bus }.notify e = { s with bus := bus } := by
      simp only [notify, hphase]
    rw [hnotify]
    refine ⟨hbus, h.paired, h.holds, h.quiet, fun k => ?_, h.unlisted, h.listed⟩
    dsimp only
    rw [h.quiet hphase, List.filterMap_nil]
    intro hstanding
    simp only [Standing, hphase] at hstanding
  · have hnotify : { s with bus := bus }.notify e =
        { s with bus := bus, hotplug := s.hotplug ++ [e] } := by
      unfold notify
      split
      case h_1 hidle => exact absurd hidle hphase
      case h_2 => rfl
    rw [hnotify]
    exact ⟨hbus, h.paired, h.holds, fun hidle => absurd hidle hphase, hheard, h.unlisted,
      h.listed⟩

theorem PairedInv.arrive (h : PairedInv hashId s) {dev : NusbDevice DeviceId}
    (hnew : ∀ d ∈ s.bus, hashId d.id ≠ hashId dev.id) :
    PairedInv hashId ({ s with bus := s.bus ++ [dev] }.notify (.connected dev)) := by
  apply h.change _ (heard_arrive h.heard hnew)
  rw [List.map_append, List.map_singleton, List.nodup_append_comm]
  refine List.nodup_cons.mpr ⟨fun hmem => ?_, h.bus⟩
  obtain ⟨d, hd, hk⟩ := List.mem_map.mp hmem
  exact hnew d hd hk

theorem PairedInv.leave [DecidableEq DeviceId] (h : PairedInv hashId s) (id : DeviceId) :
    PairedInv hashId
      ({ s with bus := s.bus.filter fun d => d.id ≠ id }.notify (.disconnected id)) :=
  h.change (h.bus.sublist (List.filter_sublist.map _)) (heard_leave h.heard)

theorem PairedInv.subscribe (h : PairedInv hashId s) (hphase : s.phase = .idle) :
    PairedInv hashId { s with phase := .subscribed, subscribedTo := s.bus.map NusbDevice.id } := by
  refine ⟨h.bus, h.paired, h.holds, nofun, fun k => ?_, fun _ => h.unlisted ?_, nofun⟩
  · dsimp only
    rw [h.quiet hphase, List.filterMap_nil]
    rintro ⟨id, hid, hk⟩
    obtain ⟨d, hd, rfl⟩ := List.mem_map.mp hid
    exact ⟨d, hd, hk⟩
  · intro listed hlisted
    rw [hphase] at hlisted
    cases hlisted

/-- The devices that are listed were there at the subscription: a first hotplug
event about one of them is that it departs. -/
theorem PairedInv.list (h : PairedInv hashId s) (hphase : s.phase = .subscribed)
    {listed : List (NusbDevice DeviceId)} (hnodup : (listed.map (opaqueId hashId)).Nodup)
    (hlists : ∀ dev ∈ listed, dev.id ∈ s.subscribedTo) :
    PairedInv hashId { s with phase := .watching listed } := by
  have hnone : ∀ k, s.devicesIdMap.get k = none := by
    apply h.unlisted
    intro devices hwatching
    rw [hphase] at hwatching
    cases hwatching
  refine ⟨h.bus, h.paired, h.holds, nofun, fun k => ?_, fun hnot => ?_, ?_⟩
  · refine (h.heard k).mono ?_ fun ha => ha
    intro hstanding
    simp only [Standing, hnone k, Option.isSome_none, Bool.false_eq_true, false_or] at hstanding
    obtain ⟨dev, hdev, hk⟩ := List.mem_map.mp hstanding
    simp only [Standing, hphase]
    exact ⟨dev.id, hlists dev hdev, hk⟩
  · exact absurd rfl (hnot listed)
  · rintro _ ⟨⟩
    exact ⟨hnodup, fun dev _ => hnone _⟩

theorem PairedInv.announce (h : PairedInv hashId s) {dev : NusbDevice DeviceId}
    {listed : List (NusbDevice DeviceId)} (hphase : s.phase = .watching (dev :: listed))
    (hfresh : s.counter.value ∉ IdLog.ids s.events) :
    PairedInv hashId ({ s with phase := .watching listed }.connect hashId dev) := by
  obtain ⟨hnodup, hnone⟩ := h.listed _ hphase
  rw [List.map_cons, List.nodup_cons] at hnodup
  obtain ⟨hpaired, hholds⟩ := h.connect hfresh (hnone dev List.mem_cons_self)
  refine ⟨h.bus, hpaired, hholds, nofun, fun k => ?_, fun hnot => ?_, ?_⟩
  · -- the device goes from the list into the map, so nothing else comes to stand
    refine (h.heard k).mono ?_ fun ha => ha
    intro hstanding
    simp only [Standing, hphase, List.map_cons, List.mem_cons]
    rcases hstanding with hsome | hlisted
    · by_cases hk : k = opaqueId hashId dev
      · exact Or.inr (Or.inl hk)
      · rw [NusbWatch.connect, KeyTable.get_insert_of_ne _ _ hk] at hsome
        exact Or.inl hsome
    · exact Or.inr (Or.inr hlisted)
  · exact absurd rfl (hnot listed)
  · rintro _ ⟨⟩
    refine ⟨hnodup.2, fun d hd => ?_⟩
    have hne : opaqueId hashId d ≠ opaqueId hashId dev := by
      intro heq
      exact hnodup.1 (List.mem_map.mpr ⟨d, hd, heq⟩)
    exact (KeyTable.get_insert_of_ne _ _ hne).trans (hnone d (List.mem_cons_of_mem _ hd))

/-- With all listed devices announced, the ids that stand are those in the map. -/
theorem pairedInv_of_watching (hphase : t.phase = .watching [])
    (hbus : (t.bus.map (opaqueId hashId)).Nodup) (hpaired : IdLog.Paired t.events t.departed)
    (hholds : IdLog.Holds t.devicesIdMap t.events)
    (hheard : ∀ k, Alternates ((t.devicesIdMap.get k).isSome = true) (OnBus hashId t.bus k)
      (t.hotplug.filterMap (about hashId k))) : PairedInv hashId t := by
  refine ⟨hbus, hpaired, hholds, fun hidle => ?_, fun k => ?_,
    fun hnot => absurd hphase (hnot []), fun listed hlisted => ?_⟩
  · cases hphase.symm.trans hidle
  · refine (hheard k).mono ?_ fun ha => ha
    simp only [Standing, hphase, List.map_nil, List.not_mem_nil, or_false, imp_self]
  · cases hphase.symm.trans hlisted
    exact ⟨List.nodup_nil, nofun⟩

theorem PairedInv.heard_watching (h : PairedInv hashId s) (hphase : s.phase = .watching [])
    {e : HotplugEvent DeviceId} {hotplug : List (HotplugEvent DeviceId)}
    (hhotplug : s.hotplug = e :: hotplug) (k : UInt64) :
    Alternates ((s.devicesIdMap.get k).isSome = true) (OnBus hashId s.bus k)
      ((about hashId k e).toList ++ hotplug.filterMap (about hashId k)) := by
  have hk := h.heard k
  simp only [Standing, hphase, List.map_nil, List.not_mem_nil, or_false] at hk
  rw [hhotplug, List.filterMap_cons] at hk
  cases habout : about hashId k e with
  | none =>
    rw [habout] at hk
    exact hk
  | some b =>
    rw [habout] at hk
    exact hk

theorem PairedInv.takeConnected (h : PairedInv hashId s) (hphase : s.phase = .watching [])
    {dev : NusbDevice DeviceId} {hotplug : List (HotplugEvent DeviceId)}
    (hhotplug : s.hotplug = .connected dev :: hotplug)
    (hfresh : s.counter.value ∉ IdLog.ids s.events) :
    PairedInv hashId ({ s with hotplug := hotplug }.handle hashId (.connected dev)) := by
  have hheard := h.heard_watching hphase hhotplug
  simp only [handle]
  split_ifs with happle
  · have hself := hheard (opaqueId hashId dev)
    have habout : about hashId (opaqueId hashId dev) (.connected dev) = some true :=
      if_pos ⟨happle, rfl⟩
    rw [habout] at hself
    -- an arrival is heard of only where no id stands
    have hnone : s.devicesIdMap.get (opaqueId hashId dev) = none :=
      Option.not_isSome_iff_eq_none.mp hself.1
    obtain ⟨hpaired, hholds⟩ := h.connect hfresh hnone
    refine pairedInv_of_watching hphase h.bus hpaired hholds fun k => ?_
    by_cases hk : k = opaqueId hashId dev
    · subst hk
      exact hself.2.mono (fun _ => trivial) fun ha => ha
    · have hother := hheard k
      have habout : about hashId k (.connected dev) = none := if_neg fun hand => hk hand.2.symm
      rw [habout] at hother
      refine hother.mono (fun hs => ?_) fun ha => ha
      rw [NusbWatch.connect, KeyTable.get_insert_of_ne _ _ hk] at hs
      exact hs
  · refine pairedInv_of_watching hphase h.bus h.paired h.holds fun k => ?_
    have habout : about hashId k (.connected dev) = none := if_neg fun hand => happle hand.1
    have hother := hheard k
    rw [habout] at hother
    exact hother

theorem PairedInv.takeDisconnected (h : PairedInv hashId s) (hphase : s.phase = .watching [])
    {id : DeviceId} {hotplug : List (HotplugEvent DeviceId)}
    (hhotplug : s.hotplug = .disconnected id :: hotplug) :
    PairedInv hashId ({ s with hotplug := hotplug }.handle hashId (.disconnected id)) := by
  -- behind the event no id stands for the device, whatever did before
  have hheard (k : UInt64) : Alternates (((s.devicesIdMap.remove (hashId id)).get k).isSome = true)
      (OnBus hashId s.bus k) (hotplug.filterMap (about hashId k)) := by
    have hk := h.heard_watching hphase hhotplug k
    rw [KeyTable.get_remove]
    by_cases heq : k = hashId id
    · have habout : about hashId k (.disconnected id) = some false := if_pos heq.symm
      rw [habout] at hk
      rw [if_pos heq]
      have hgone : Alternates False (OnBus hashId s.bus k)
          (hotplug.filterMap (about hashId k)) := hk
      exact hgone.mono nofun fun ha => ha
    · have habout : about hashId k (.disconnected id) = none := if_neg (Ne.symm heq)
      rw [habout] at hk
      rw [if_neg heq]
      exact hk
  simp only [handle]
  cases hget : s.devicesIdMap.get (hashId id) with
  -- a device that was never announced, of another vendor for example
  | none =>
    refine pairedInv_of_watching hphase h.bus (h.paired.departSilent (h.notOpen hget)) h.holds
      fun k => (hheard k).mono (fun hs => ?_) fun ha => ha
    have hk : k ≠ hashId id := by
      rintro rfl
      rw [hget] at hs
      cases hs
    rw [KeyTable.get_remove_of_ne _ hk]
    exact hs
  | some i =>
    exact pairedInv_of_watching hphase h.bus (h.paired.depart ((h.holds _ _).mp hget))
      (h.holds.disconnect h.paired.sound hget) hheard

variable [DecidableEq DeviceId]

theorem PairedInv.step (h : PairedInv hashId s) (hlists : ListsSubscribed hashId s a)
    (ht : s.step hashId a = some t) : PairedInv hashId t := by
  cases a with
  | arrive dev =>
    simp only [NusbWatch.step] at ht
    split_ifs at ht
    cases ht
    exact h.arrive hlists
  | leave id =>
    simp only [NusbWatch.step] at ht
    split_ifs at ht
    cases ht
    exact h.leave id
  | subscribe =>
    simp only [NusbWatch.step] at ht
    split at ht
    case h_1 hphase =>
      cases ht
      exact h.subscribe hphase
    case h_2 => cases ht
  | list devices =>
    simp only [NusbWatch.step] at ht
    split at ht
    case h_1 hphase =>
      cases ht
      exact h.list hphase List.nodup_nil nofun
    case h_2 devices hphase =>
      split_ifs at ht with hperm
      cases ht
      -- the list is the bus in some order, where each device stands once
      have hnodup : (devices.map (opaqueId hashId)).Nodup := (hperm.map _).nodup_iff.mpr h.bus
      refine h.list hphase (hnodup.sublist (List.filter_sublist.map _)) fun dev hdev => ?_
      obtain ⟨hmem, happle⟩ := List.mem_filter.mp hdev
      exact hlists dev hmem happle
    case h_3 => cases ht
  | announce =>
    simp only [NusbWatch.step] at ht
    split at ht
    case h_1 dev listed hphase =>
      cases ht
      exact h.announce hphase hlists
    case h_2 => cases ht
  | take =>
    simp only [NusbWatch.step] at ht
    split at ht
    case h_1 e hotplug hphase hhotplug =>
      cases ht
      cases e with
      | connected dev => exact h.takeConnected hphase hhotplug hlists
      | disconnected id => exact h.takeDisconnected hphase hhotplug
    case h_2 => cases ht
  | takeElsewhere =>
    cases ht
    exact ⟨h.bus, h.paired, h.holds, h.quiet, h.heard, h.unlisted, h.listed⟩

end NusbWatch

end Rusbmux
