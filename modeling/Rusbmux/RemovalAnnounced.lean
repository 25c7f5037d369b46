import Rusbmux.NetworkIds
import Rusbmux.Shutdown

/-! `remove_device` and its callers, and the removal of a network device by its
watcher: what is broadcast about a device whose entry is taken out. -/
namespace Rusbmux

/-- A removal, with what has happened since the entry was taken out. -/
structure Removal where
  id : ℕ
  device : Device
  /-- A USB device with the serial number was in the map at that time. -/
  covered : Bool
  /-- The network devices with the serial number that have been in the map since. -/
  twins : List ℕ
  /-- `Detached` has been sent for the device. -/
  detached : Bool
  /-- `Attached` has been sent for a network device with the serial number. -/
  attached : Bool

namespace Removal

/-- The entry is a network device with the serial number. -/
def isTwin (devices : Registry) (serial : String) (id : ℕ) : Bool :=
  (devices.get id).any fun e => e.isNetworkOf serial

def attaches (devices : Registry) (serial : String) : Option DeviceEvent → Bool
  | some (.attached id) => isTwin devices serial id
  | _ => false

/-- A removal whose entry is just taken out. -/
def new (devices : Registry) (entry : ℕ × Device) : Removal where
  id := entry.1
  device := entry.2
  covered := devices.hasUsb entry.2.serialNumber
  twins := devices.keys.filter (isTwin devices entry.2.serialNumber)
  detached := false
  attached := false

/-- The removal after a step of the daemon. -/
def observe (devices : Registry) (ev : Option DeviceEvent) (r : Removal) : Removal := { r with
  twins := r.twins.filter (isTwin devices r.device.serialNumber)
  detached := r.detached || ev == some (.detached r.id)
  attached := r.attached || attaches devices r.device.serialNumber ev }

/-- The task that has taken the entry out is done with the device. -/
def isOver (d : Daemon) (r : Removal) : Bool :=
  match r.device with
  | .usb _ => match d.usb with
    | .removed id _ | .leaving id => id != r.id
    | _ => true
  | .network _ _ => (d.removing.get r.id).isNone

/-- A USB device is announced as detached, and a network twin, if one has stayed
in the map, as attached; a network device that no USB device covered is
announced as detached. -/
def Announced (r : Removal) : Prop :=
  match r.device with
  | .usb _ => r.detached = true ∧ (r.twins ≠ [] → r.attached = true)
  | .network _ _ => r.covered = false → r.detached = true

end Removal

/-- The daemon with the removals so far. -/
structure Removals where
  daemon : Daemon
  removals : List Removal

namespace Removals

/-- The entry that a removal takes out. -/
def takes (d : Daemon) : Daemon.Action → Option (ℕ × Device)
  | .usbDisconnected id | .serviceRemoved id _ | .heartbeatFails id =>
    (d.devices.get id).map fun e => (id, e)
  | _ => none

/-- A step of the daemon with what its search reads. -/
structure Action where
  reads : SerialReads
  daemon : Daemon.Action

def step (s : Removals) (a : Action) : Option Removals :=
  (s.daemon.stepRead a.reads a.daemon).map fun r =>
    ⟨r.1, ((takes s.daemon a.daemon).map (.new r.1.devices)).toList ++
      s.removals.map (.observe r.1.devices r.2)⟩

def start : Removals := ⟨.start, []⟩

/-- Every removal whose task is done has been announced. -/
def AllAnnounced (s : Removals) : Prop :=
  ∀ r ∈ s.removals, r.isOver s.daemon = true → r.Announced

/-- No shutdown fails, and the search after the removal of a network device finds
no USB device unless there was one when the entry was taken out. -/
def StaysUncovered (s : Removals) (a : Action) : Prop :=
  match a.daemon with
  | .shutdownFails => False
  | .removalCheck id => ∀ r ∈ s.removals, r.id = id → r.device.isUsb = false →
      s.daemon.devices.hasUsbRead a.reads r.device.serialNumber = true → r.covered = true
  | _ => True

/-- When `remove_device` looks for the network twin of a USB device that is gone,
what it reads as the device's serial number is right at each entry. -/
def ReadsTwin (s : Removals) (a : Action) : Prop :=
  match a.daemon with
  | .announceTwin twin => s.daemon.ReadsRight a.reads (.announceTwin twin)
  | _ => True

end Removals

namespace Daemon

variable {reads : SerialReads} {d d' : Daemon} {a : Action} {ev : Option DeviceEvent}
  {id n : ℕ} {info : DeviceInfo}

/-- While a shutdown runs, the USB task goes on with the search for the twin,
unless it fails. -/
theorem step_of_removed (hu : d.usb = .removed id info)
    (h : d.stepRead reads a = some (d', ev)) :
    a = .shutdownFails ∧ d'.usb = .idle ∨
      (∃ twin, a = .announceTwin twin ∧ d.devices.findsRead reads (.usb info) twin = true ∧
        d' = { d with usb := .leaving id } ∧ ev = twin.map .attached) ∨
      d'.usb = .removed id info := by
  cases move_of_stepRead h with
  | shutdownFails => exact .inl ⟨rfl, rfl⟩
  | announceTwin k i twin hk htwin =>
    rw [hu] at hk
    cases hk
    exact .inr (.inl ⟨twin, rfl, htwin, rfl, rfl⟩)
  | usbConnected _ _ _ hk | usbDisconnected _ _ hk | deviceNotFound _ hk | notice _ _ hk
  | usbRetain _ _ hk | usbInsert _ _ hk | left _ hk | lost _ _ hk | reopenFails _ _ hk
  | reopen _ _ hk | reopened _ hk =>
    rw [hu] at hk
    cases hk
  | _ => exact .inr (.inr hu)

theorem step_of_leaving (hu : d.usb = .leaving id) (h : d.stepRead reads a = some (d', ev)) :
    ev = some (.detached id) ∨ d'.usb = .leaving id := by
  cases move_of_stepRead h with
  | left k hk =>
    rw [hu] at hk
    cases hk
    exact .inl rfl
  | usbConnected _ _ _ hk | usbDisconnected _ _ hk | deviceNotFound _ hk | notice _ _ hk
  | usbRetain _ _ hk | usbInsert _ _ hk | shutdownFails _ _ hk | announceTwin _ _ _ hk
  | lost _ _ hk | reopenFails _ _ hk | reopen _ _ hk | reopened _ hk =>
    rw [hu] at hk
    cases hk
  | _ => exact .inr hu

/-- Who sends `Detached`. -/
theorem detached_cases (h : d.stepRead reads a = some (d', some (.detached n))) :
    (d.usb = .idle ∧ ∃ e, d.devices.get n = some e) ∨ d.usb = .leaving n ∨
      (∃ o, d.usb = .lost n o) ∨ d.removing.get n = some .announcing := by
  generalize hev : some (DeviceEvent.detached n) = ev at h
  cases move_of_stepRead h with
  | usbConnected id info twin hu hid htwin =>
    cases twin with
    | none => cases hev
    | some k =>
      cases hev
      have hany : (d.devices.get n).isSome = true := by
        cases hn : d.devices.get n with
        | none => simp [Registry.findsRead, hn] at htwin
        | some e => rfl
      exact .inl ⟨hu, Option.isSome_iff_exists.mp hany⟩
  | announceTwin id info twin hu htwin => cases twin <;> cases hev
  | left id hu =>
    cases hev
    exact .inr (.inl hu)
  | lost id o hu =>
    cases hev
    exact .inr (.inr (.inl ⟨o, hu⟩))
  | removalDetached id ht =>
    cases hev
    exact .inr (.inr (.inr ht))
  | _ => cases hev

/-- While a shutdown runs, nobody sends `Detached` for the device. -/
theorem Apart.event_of_removed (hd : d.Apart) (hu : d.usb = .removed id info)
    (h : d.stepRead reads a = some (d', ev)) : ev ≠ some (.detached id) := by
  rintro rfl
  rcases detached_cases h with ⟨hk, -⟩ | hk | ⟨o, hk⟩ | ht
  · rw [hu] at hk
    cases hk
  · rw [hu] at hk
    cases hk
  · rw [hu] at hk
    cases hk
  · exact (hd.removing id _ ht).gone (by rw [hu]; rfl)

/-- Nobody but the task of its removal sends `Detached` for a network device
whose entry is out. -/
theorem OfNetwork.event_of_out (hn : d.OfNetwork n) (hnone : d.devices.get n = none)
    (hrem : d.removing.get n ≠ some .announcing) (h : d.stepRead reads a = some (d', ev)) :
    ev ≠ some (.detached n) := by
  rintro rfl
  rcases detached_cases h with ⟨-, e, he⟩ | hk | ⟨o, hk⟩ | ht
  · rw [hnone] at he
    cases he
  · exact hn.gone (by rw [hk]; rfl)
  · exact hn.gone (by rw [hk]; rfl)
  · exact hrem ht

end Daemon

namespace Removal

variable {reads : SerialReads} {d d' : Daemon} {a : Daemon.Action} {ev : Option DeviceEvent}
  {r : Removal} {info : DeviceInfo} {serial : String}

/-- Where the removal of a USB device is. -/
def SoundUsb (d : Daemon) (info : DeviceInfo) (r : Removal) : Prop :=
  r.detached = true ∨ d.usb = .removed r.id info ∨ d.usb = .leaving r.id

/-- The twins of a USB device are told of once its shutdown is done. -/
def TwinTold (d : Daemon) (r : Removal) : Prop :=
  ∀ info, r.device = .usb info →
    d.usb = .removed r.id info ∨ (r.twins ≠ [] → r.attached = true)

/-- Where the removal of a network device is. Its id does not come back. -/
structure SoundNetwork (d : Daemon) (serial : String) (r : Removal) : Prop where
  ofNetwork : d.OfNetwork r.id
  entry : d.devices.get r.id = none
  phase : d.removing.get r.id = some (.removed serial) ∧ r.detached = false ∨
    d.removing.get r.id = some .announcing ∨
      d.removing.get r.id = none ∧ (r.covered = false → r.detached = true)

def Sound (d : Daemon) (r : Removal) : Prop :=
  match r.device with
  | .usb info => r.SoundUsb d info
  | .network _ serial => r.SoundNetwork d serial

theorem Sound.announced (h : r.Sound d) (htold : r.TwinTold d) (hover : r.isOver d = true) :
    r.Announced := by
  unfold Sound at h
  unfold isOver at hover
  unfold Announced
  cases hdevice : r.device with
  | usb info =>
    simp only [hdevice] at h hover ⊢
    have hnot : d.usb ≠ .removed r.id info := by
      intro hu
      simp [hu] at hover
    refine ⟨?_, (htold info hdevice).resolve_left hnot⟩
    rcases h with h | hu | hu
    · exact h
    · exact absurd hu hnot
    · simp [hu] at hover
  | network mac serial =>
    simp only [hdevice, Option.isNone_iff_eq_none] at h hover ⊢
    rcases h.phase with ⟨ht, -⟩ | ht | ⟨-, h⟩
    · rw [hover] at ht
      cases ht
    · rw [hover] at ht
      cases ht
    · exact h

/-- What was sent stays sent, and twins only leave. -/
theorem attached_observe (devices : Registry) (ev : Option DeviceEvent)
    (h : r.twins ≠ [] → r.attached = true) :
    (r.observe devices ev).twins ≠ [] → (r.observe devices ev).attached = true := by
  intro htwins
  have hold : r.twins ≠ [] := by
    intro hnil
    simp [observe, hnil] at htwins
  simp [observe, h hold]

theorem detached_observe (devices : Registry) (h : r.detached = true ∨ ev = some (.detached r.id)) :
    (r.observe devices ev).detached = true := by
  rcases h with h | h <;> simp [observe, h]

theorem detached_observe_of_ne (devices : Registry) (h : r.detached = false)
    (hev : ev ≠ some (.detached r.id)) : (r.observe devices ev).detached = false := by
  simp [observe, h, hev]

/-- The search of `remove_device` misses no twin that has stayed in the map. -/
theorem attached_of_finds {devices : Registry} {twin : Option ℕ}
    (h : devices.finds r.device.serialNumber twin = true) :
    (r.observe devices (twin.map .attached)).twins ≠ [] →
      (r.observe devices (twin.map .attached)).attached = true := by
  intro htwins
  cases twin with
  | some k =>
    have htwin : isTwin devices r.device.serialNumber k = true := h
    simp [observe, attaches, htwin]
  | none =>
    have hnone : devices.hasNetwork r.device.serialNumber = false := by
      simpa [Registry.finds] using h
    obtain ⟨k, hk⟩ := List.exists_mem_of_ne_nil _ htwins
    have htwin : isTwin devices r.device.serialNumber k = true := (List.mem_filter.mp hk).2
    have hhas : devices.hasNetwork r.device.serialNumber = true := by
      unfold Registry.hasNetwork
      rw [KeyTable.any_eq_true_iff]
      cases hget : devices.get k with
      | none => simp [isTwin, hget] at htwin
      | some e => exact ⟨k, e, hget, by simpa [isTwin, hget] using htwin⟩
    rw [hnone] at hhas
    cases hhas

theorem SoundUsb.step (h : r.SoundUsb d info) (ha : a ≠ .shutdownFails)
    (hstep : d.stepRead reads a = some (d', ev)) :
    (r.observe d'.devices ev).SoundUsb d' info := by
  rcases h with hdetached | hu | hu
  · exact .inl (detached_observe _ (.inl hdetached))
  · rcases Daemon.step_of_removed hu hstep with ⟨hfails, -⟩ | ⟨twin, -, -, rfl, -⟩ | hu'
    · exact absurd hfails ha
    · exact .inr (.inr rfl)
    · exact .inr (.inl hu')
  · cases Daemon.step_of_leaving hu hstep with
    | inl hev => exact .inl (detached_observe _ (.inr hev))
    | inr hu' => exact .inr (.inr hu')

theorem TwinTold.step (h : r.TwinTold d) (ha : a ≠ .shutdownFails)
    (hreads : ∀ twin, a = .announceTwin twin → d.ReadsRight reads a)
    (hstep : d.stepRead reads a = some (d', ev)) : (r.observe d'.devices ev).TwinTold d' := by
  intro info hdevice
  rcases h info hdevice with hu | htwins
  · rcases Daemon.step_of_removed hu hstep with ⟨hfails, -⟩ | ⟨twin, rfl, hfinds, rfl, rfl⟩ | hu'
    · exact absurd hfails ha
    · have hright := hreads twin rfl r.id info hu
      rw [Registry.findsRead_eq hright] at hfinds
      have hserial : r.device = .usb info := hdevice
      rw [← hserial] at hfinds
      exact .inr (attached_of_finds hfinds)
    · exact .inl hu'
  · exact .inr (attached_observe d'.devices ev htwins)

theorem SoundNetwork.step (hd : d.Apart) (h : r.SoundNetwork d serial)
    (ha : a = .removalCheck r.id → d.devices.hasUsbRead reads serial = true → r.covered = true)
    (hstep : d.stepRead reads a = some (d', ev)) :
    (r.observe d'.devices ev).SoundNetwork d' serial := by
  refine ⟨h.ofNetwork.step hd.vacant hstep,
    h.ofNetwork.get_eq_none_step hd.vacant h.entry hstep, ?_⟩
  have hsilent : d.removing.get r.id ≠ some .announcing → ev ≠ some (.detached r.id) :=
    fun hrem => h.ofNetwork.event_of_out h.entry hrem hstep
  -- a step that leaves the task of this removal alone
  have hsame (hrem : d'.removing.get r.id = d.removing.get r.id) :
      d'.removing.get r.id = some (.removed serial) ∧ (r.observe d'.devices ev).detached = false ∨
        d'.removing.get r.id = some .announcing ∨
          d'.removing.get r.id = none ∧
            (r.covered = false → (r.observe d'.devices ev).detached = true) := by
    rw [hrem]
    rcases h.phase with ⟨ht, hdetached⟩ | ht | ⟨ht, hover⟩
    · refine .inl ⟨ht, detached_observe_of_ne _ hdetached (hsilent ?_)⟩
      rw [ht]
      nofun
    · exact .inr (.inl ht)
    · exact .inr (.inr ⟨ht, fun hc => detached_observe _ (.inl (hover hc))⟩)
  cases Daemon.move_of_stepRead hstep with
  | takeNetwork _ id mac name ha he =>
    -- the entry of this removal is gone already
    have hne : r.id ≠ id := by
      intro heq
      rw [← heq, h.entry] at he
      cases he
    exact hsame (KeyTable.get_insert_of_ne _ _ hne)
  | removalCovered id name ht hu =>
    by_cases hid : r.id = id
    · subst hid
      rcases h.phase with ⟨hphase, -⟩ | hphase | ⟨hphase, -⟩
      · rw [hphase] at ht
        cases ht
        refine .inr (.inr ⟨KeyTable.get_remove_self _ _, fun hc => ?_⟩)
        have hcovered := ha rfl hu
        have hc : r.covered = false := hc
        rw [hcovered] at hc
        cases hc
      · rw [hphase] at ht
        cases ht
      · rw [hphase] at ht
        cases ht
    · exact hsame (KeyTable.get_remove_of_ne _ hid)
  | removalShown id name ht hu =>
    by_cases hid : r.id = id
    · subst hid
      exact .inr (.inl (KeyTable.get_insert_self _ _ _))
    · exact hsame (KeyTable.get_insert_of_ne _ _ hid)
  | removalDetached id ht =>
    by_cases hid : r.id = id
    · subst hid
      exact .inr (.inr ⟨KeyTable.get_remove_self _ _, fun _ => detached_observe _ (.inr rfl)⟩)
    · exact hsame (KeyTable.get_remove_of_ne _ hid)
  | _ => exact hsame rfl

end Removal

namespace Removals

structure Inv (s : Removals) : Prop where
  apart : s.daemon.Apart
  sound : ∀ r ∈ s.removals, r.Sound s.daemon
  /-- The shutdown that runs is that of a removal that is not announced yet. -/
  current : ∀ id info, s.daemon.usb = .removed id info →
    ∃ r ∈ s.removals, r.id = id ∧ r.device = .usb info ∧ r.detached = false

theorem inv_start : start.Inv := by
  refine ⟨Daemon.apart_start, ?_, ?_⟩
  · intro r hr
    cases hr
  · intro id info hu
    cases hu

variable {s t : Removals} {reads : SerialReads} {d d' : Daemon} {a : Daemon.Action}
  {ev : Option DeviceEvent}

/-- A removal begins with the entry that is taken out. -/
theorem sound_new (hd : d.Apart) (hstep : d.stepRead reads a = some (d', ev))
    {entry : ℕ × Device} (h : takes d a = some entry) :
    (Removal.new d'.devices entry).Sound d' := by
  have hentry {id : ℕ} {e : Device}
      (hid : (d.devices.get id).map (fun e => (id, e)) = some entry)
      (he : d.devices.get id = some e) : entry = (id, e) := by
    rw [he] at hid
    cases hid
    rfl
  have hnetwork {id : ℕ} {mac serial : String}
      (hid : (d.devices.get id).map (fun e => (id, e)) = some entry)
      (he : d.devices.get id = some (.network mac serial)) (ha : d' = d.takeNetwork id serial) :
      (Removal.new d'.devices entry).Sound d' := by
    have hn := hd.network id mac serial he
    have hentry := hentry hid he
    subst hentry
    refine ⟨hn.step hd.vacant hstep, ?_, .inl ⟨?_, rfl⟩⟩
    · rw [ha]
      exact KeyTable.get_remove_self _ _
    · rw [ha]
      exact KeyTable.get_insert_self _ _ _
  cases Daemon.move_of_stepRead hstep with
  | usbDisconnected id info hu he =>
    have hentry := hentry h he
    subst hentry
    exact .inr (.inl rfl)
  | deviceNotFound id hu he =>
    simp [takes, he] at h
  | takeNetwork _ id mac serial ha he =>
    rcases ha with rfl | rfl <;> exact hnetwork h he rfl
  | _ => cases h

theorem sound_step (hs : s.Inv) (ha : s.StaysUncovered ⟨reads, a⟩)
    (hstep : s.daemon.stepRead reads a = some (d', ev)) {r : Removal} (hr : r ∈ s.removals) :
    (r.observe d'.devices ev).Sound d' := by
  have hsound := hs.sound r hr
  unfold Removal.Sound at hsound ⊢
  change match r.device with
    | .usb info => (r.observe d'.devices ev).SoundUsb d' info
    | .network _ serial => (r.observe d'.devices ev).SoundNetwork d' serial
  cases hdevice : r.device with
  | usb info =>
    simp only [hdevice] at hsound ⊢
    refine hsound.step ?_ hstep
    rintro rfl
    exact ha
  | network mac serial =>
    simp only [hdevice] at hsound ⊢
    refine hsound.step hs.apart ?_ hstep
    rintro rfl hu
    have hserial : r.device.serialNumber = serial := by rw [hdevice]; rfl
    exact ha r hr rfl (by rw [hdevice]; rfl) (by rw [hserial]; exact hu)

theorem removed_of_step (h : d.stepRead reads a = some (d', ev)) {id : ℕ} {info : DeviceInfo}
    (hu : d'.usb = .removed id info) :
    d.usb = .removed id info ∨ takes d a = some (id, .usb info) := by
  cases Daemon.move_of_stepRead h with
  | usbDisconnected k i hk he =>
    cases hu
    exact .inr (by simp [takes, he])
  | usbConnected | usbRetain | usbInsert | shutdownFails | announceTwin | left | notice | lost
  | reopenFails | reopen | reopened => cases hu
  | _ => exact .inl hu

theorem mem_observe {r : Removal} (hr : r ∈ s.removals) (a : Daemon.Action)
    (d' : Daemon) (ev : Option DeviceEvent) :
    r.observe d'.devices ev ∈ ((takes s.daemon a).map (.new d'.devices)).toList ++
      s.removals.map (.observe d'.devices ev) :=
  List.mem_append_right _ (List.mem_map_of_mem hr)

theorem Inv.step (hs : s.Inv) (ha : s.StaysUncovered ⟨reads, a⟩)
    (h : s.step ⟨reads, a⟩ = some t) : t.Inv := by
  obtain ⟨⟨d', ev⟩, hstep, rfl⟩ := Option.map_eq_some_iff.mp h
  refine ⟨hs.apart.step hstep, ?_, ?_⟩
  · intro r hr
    cases List.mem_append.mp hr with
    | inl hnew =>
      obtain ⟨entry, hentry, rfl⟩ := Option.map_eq_some_iff.mp (Option.mem_toList.mp hnew)
      exact sound_new hs.apart hstep hentry
    | inr hold =>
      obtain ⟨former, hformer, rfl⟩ := List.mem_map.mp hold
      exact sound_step hs ha hstep hformer
  · intro id info hu
    cases removed_of_step hstep hu with
    | inl hold =>
      obtain ⟨r, hr, hid, hdevice, hdetached⟩ := hs.current id info hold
      refine ⟨_, mem_observe hr a d' ev, hid, hdevice, ?_⟩
      apply Removal.detached_observe_of_ne _ hdetached
      rw [hid]
      exact hs.apart.event_of_removed hold hstep
    | inr hnew =>
      refine ⟨.new d'.devices (id, .usb info), ?_, rfl, rfl, rfl⟩
      apply List.mem_append_left
      rw [hnew]
      exact List.mem_singleton_self _

/-- A failed shutdown leaves a USB device without its `Detached`. -/
theorem Inv.not_fails (hs : s.Inv) (h : s.step ⟨reads, .shutdownFails⟩ = some t)
    (ht : t.AllAnnounced) : False := by
  obtain ⟨⟨d', ev⟩, hstep, rfl⟩ := Option.map_eq_some_iff.mp h
  cases Daemon.move_of_stepRead hstep with
  | shutdownFails id info hu =>
    obtain ⟨r, hr, hid, hdevice, hdetached⟩ := hs.current id info hu
    have hover : (r.observe s.daemon.devices none).isOver { s.daemon with usb := .idle } =
        true := by
      simp only [Removal.isOver, Removal.observe, hdevice]
    have hannounced := ht _ (mem_observe hr .shutdownFails _ none) hover
    have htrue : (r.observe s.daemon.devices none).detached = true := by
      unfold Removal.Announced at hannounced
      simp only [Removal.observe, hdevice] at hannounced
      exact hannounced.1
    have hnone : (none : Option DeviceEvent) ≠ some (.detached r.id) := nofun
    rw [Removal.detached_observe_of_ne _ hdetached hnone] at htrue
    cases htrue
  | takeNetwork _ id mac serial ha => rcases ha with ha | ha <;> cases ha

/-- A search that meets a USB device leaves a network device without its `Detached`. -/
theorem Inv.covered_of_check (hs : s.Inv) {id : ℕ}
    (h : s.step ⟨reads, .removalCheck id⟩ = some t) (ht : t.AllAnnounced) :
    s.StaysUncovered ⟨reads, .removalCheck id⟩ := by
  obtain ⟨⟨d', ev⟩, hstep, rfl⟩ := Option.map_eq_some_iff.mp h
  intro r hr hid hnetwork hu
  rw [← Bool.not_eq_false]
  intro hcovered
  have hsound := hs.sound r hr
  unfold Removal.Sound at hsound
  cases hdevice : r.device with
  | usb info =>
    rw [hdevice] at hnetwork
    cases hnetwork
  | network mac serial =>
    simp only [hdevice] at hsound hu
    subst hid
    -- the task of the removal is one that waits for its search
    have hphase (name : String) (htask : s.daemon.removing.get r.id = some (.removed name)) :
        name = serial ∧ r.detached = false := by
      rcases hsound.phase with ⟨hp, hd⟩ | hp | ⟨hp, -⟩
      · rw [hp] at htask
        cases htask
        exact ⟨rfl, hd⟩
      · rw [hp] at htask
        cases htask
      · rw [hp] at htask
        cases htask
    cases Daemon.move_of_stepRead hstep with
    | removalCovered _ name htask hcov =>
      obtain ⟨rfl, hdetached⟩ := hphase name htask
      -- the removal ends here without a Detached
      have hover : (r.observe s.daemon.devices none).isOver
          { s.daemon with removing := s.daemon.removing.remove r.id } = true := by
        simp only [Removal.isOver, Removal.observe, hdevice, KeyTable.get_remove_self,
          Option.isNone_none]
      have hannounced := ht _ (mem_observe hr (.removalCheck r.id) _ none) hover
      unfold Removal.Announced at hannounced
      simp only [Removal.observe, hdevice] at hannounced
      have htrue := hannounced hcovered
      simp [hdetached] at htrue
    | removalShown _ name htask hcov =>
      obtain ⟨rfl, -⟩ := hphase name htask
      exact Bool.false_ne_true (hcov.symm.trans hu)
    | takeNetwork _ _ _ _ ha => rcases ha with ha | ha <;> cases ha

theorem inv_step (s : Removals) (a : Action) (t : Removals) (hs : s.Inv)
    (h : s.step a = some t) :
    (s.StaysUncovered a → t.Inv) ∧ (t.AllAnnounced → s.StaysUncovered a) := by
  obtain ⟨reads, a⟩ := a
  refine ⟨fun ha => hs.step ha h, fun ht => ?_⟩
  cases a with
  | shutdownFails => exact hs.not_fails h ht
  | removalCheck id => exact hs.covered_of_check h ht
  | _ => trivial

/-- The twins of every removal are told of. -/
def TwinsTold (s : Removals) : Prop := ∀ r ∈ s.removals, r.TwinTold s.daemon

theorem TwinsTold.step {a : Action} (htold : s.TwinsTold)
    (ha : s.StaysUncovered a) (hreads : s.ReadsTwin a) (h : s.step a = some t) :
    t.TwinsTold := by
  obtain ⟨reads, a⟩ := a
  obtain ⟨⟨d', ev⟩, hstep, rfl⟩ := Option.map_eq_some_iff.mp h
  intro r hr
  cases List.mem_append.mp hr with
  | inl hnew =>
    obtain ⟨entry, hentry, rfl⟩ := Option.map_eq_some_iff.mp (Option.mem_toList.mp hnew)
    intro info hdevice
    left
    have hdevice : entry.2 = .usb info := hdevice
    cases Daemon.move_of_stepRead hstep with
    | usbDisconnected id i hu he =>
      simp only [takes, he, Option.map_some] at hentry
      cases hentry
      cases hdevice
      rfl
    | deviceNotFound id hu he => simp [takes, he] at hentry
    | takeNetwork _ id mac serial ha he =>
      rcases ha with rfl | rfl <;> simp only [takes, he, Option.map_some] at hentry <;>
        cases hentry <;> cases hdevice
    | _ => cases hentry
  | inr hold =>
    obtain ⟨former, hformer, rfl⟩ := List.mem_map.mp hold
    refine (htold former hformer).step ?_ ?_ hstep
    · rintro rfl
      exact ha
    · rintro twin rfl
      exact hreads

/-- In every run of the tasks in which no shutdown fails, no search after the
removal of a network device meets a USB device that was not there when the entry
was taken out, and no search for a twin misreads the serial number, each removal
whose task is done has been announced. The first two are met whenever it has. -/
theorem allAnnounced_of_staysUncovered (as : List Action) :
    (StepSystem.EveryStep step (fun s a => s.StaysUncovered a ∧ s.ReadsTwin a) start as →
      StepSystem.EveryState step AllAnnounced start as) ∧
    (StepSystem.EveryState step AllAnnounced start as →
      StepSystem.EveryStep step StaysUncovered start as) := by
  constructor
  · intro h
    have hstep (s : Removals) (a : Action) (t : Removals) (hs : s.Inv ∧ s.TwinsTold)
        (ha : s.StaysUncovered a ∧ s.ReadsTwin a) (hst : s.step a = some t) :
        t.Inv ∧ t.TwinsTold :=
      ⟨(inv_step s a t hs.1 hst).1 ha.1, hs.2.step ha.1 ha.2 hst⟩
    have hstart : start.TwinsTold := fun r hr => by cases hr
    have hrun := StepSystem.everyState_of_everyStep hstep ⟨inv_start, hstart⟩ h
    exact hrun.mono fun s hs r hr hover => (hs.1.sound r hr).announced (hs.2 r hr) hover
  · exact StepSystem.everyStep_of_everyState inv_step inv_start

theorem readsTwin_own (s : Removals) (a : Daemon.Action) : s.ReadsTwin ⟨.own, a⟩ := by
  cases a with
  | announceTwin twin => exact s.daemon.readsRight_own (.announceTwin twin)
  | _ => trivial

/-- A USB device with a network twin is unplugged, and the search for the twin still
reads its serial number. -/
theorem allAnnounced_of_staysUncovered_twin : StepSystem.EveryState step AllAnnounced start
    [⟨.own, .usbConnected 1 ⟨APPLE_VID, some "A", 9⟩ none⟩, ⟨.own, .usbRetain⟩,
      ⟨.own, .usbInsert⟩, ⟨.own, .serviceResolved 2 "m" "A"⟩, ⟨.own, .networkInsert 2⟩,
      ⟨.own, .networkCheck 2⟩, ⟨.own, .usbDisconnected 1⟩, ⟨.own, .announceTwin (some 2)⟩,
      ⟨.own, .sendDetached⟩] := by
  apply (allAnnounced_of_staysUncovered _).1
  refine .intro ⟨trivial, trivial⟩ (.intro ⟨trivial, trivial⟩ (.intro ⟨trivial, trivial⟩ ?_))
  refine .intro ⟨trivial, trivial⟩ (.intro ⟨trivial, trivial⟩ (.intro ⟨trivial, trivial⟩ ?_))
  exact .intro ⟨trivial, trivial⟩ (.intro ⟨trivial, readsTwin_own _ _⟩
    (.intro ⟨trivial, trivial⟩ trivial))

/-- A USB device arrives and is unplugged, and its shutdown fails. -/
theorem not_allAnnounced_fails : ¬ ∀ as : List Action,
    StepSystem.EveryState step AllAnnounced start as := by
  intro h
  have hlast := (h [⟨.own, .usbConnected 1 ⟨APPLE_VID, some "A", 9⟩ none⟩, ⟨.own, .usbRetain⟩,
    ⟨.own, .usbInsert⟩, ⟨.own, .usbDisconnected 1⟩, ⟨.own, .shutdownFails⟩]).last rfl
  have hannounced := hlast ⟨1, .usb ⟨APPLE_VID, some "A", 9⟩, false, [], false, false⟩
    List.mem_cons_self rfl
  exact absurd hannounced.1 Bool.false_ne_true

end Removals

namespace Shutdown

/-- `close_all` has not returned an error. -/
def NotFailed (s : Shutdown) : Prop := s.task ≠ .failed

/-- No turn of `close_all` comes to a connection that is still there when the
writer loop has ended. -/
def ClosesBeforeStop (s : Shutdown) (a : Action) : Prop :=
  a = .closeNext → ∀ c rest, s.task = .closing (c :: rest) → (s.arcs.get c).isSome = true →
    s.writer.isStopped = false

theorem failed_of_step {s t : Shutdown} {a : Action} (h : s.step a = some t)
    (ht : t.task = .failed) : s.task = .failed ∨ a = .closeNext := by
  cases a with
  | closeNext => exact .inr rfl
  | _ =>
    refine .inl ?_
    simp only [step] at h
    repeat' split at h
    all_goals cases h <;> first
      | exact ht
      | cases ht

theorem stopped_of_failed {s t : Shutdown} (h : s.closeNext = some t) (ht : t.task = .failed) :
    ∃ c rest, s.task = .closing (c :: rest) ∧ (s.arcs.get c).isSome = true ∧
      s.writer.isStopped = true := by
  unfold closeNext at h
  split at h
  next =>
    cases h
    cases ht
  next c rest htask =>
    split at h
    next =>
      cases h
      cases ht
    next conn hget =>
      refine ⟨c, rest, htask, by rw [hget]; rfl, ?_⟩
      split_ifs at h with hstopped hroom
      · exact hstopped
      · cases h
        cases ht
  next => cases h

/-- `shutdown` fails exactly where the writer loop has ended before the RST of a
connection that is still there is put on the channel. -/
theorem notFailed_iff_closesBeforeStop (as : List Action) :
    StepSystem.EveryState step NotFailed start as ↔
      StepSystem.EveryStep step ClosesBeforeStop start as := by
  have hexact (s : Shutdown) (a : Action) (t : Shutdown) (hs : s.NotFailed)
      (h : s.step a = some t) : (s.ClosesBeforeStop a → t.NotFailed) ∧
        (t.NotFailed → s.ClosesBeforeStop a) := by
    constructor
    · intro ha ht
      obtain rfl := (failed_of_step h ht).resolve_left hs
      obtain ⟨c, rest, htask, hget, hstopped⟩ := stopped_of_failed h ht
      rw [ha rfl c rest htask hget] at hstopped
      cases hstopped
    · rintro ht rfl c rest htask hget
      rw [← Bool.not_eq_true]
      intro hstopped
      obtain ⟨conn, hconn⟩ := Option.isSome_iff_exists.mp hget
      apply ht
      have hstep : s.closeNext = some { s with task := .failed } := by
        simp only [closeNext, htask, hconn, hstopped, if_true]
      have heq : { s with task := .failed } = t := Option.some.inj (hstep.symm.trans h)
      rw [← heq]
  have hstart : start.NotFailed := by
    intro h
    cases h
  exact StepSystem.everyState_iff_everyStep hexact (fun _ hs => hs) hstart as

end Shutdown

end Rusbmux
