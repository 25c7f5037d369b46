import Rusbmux.SerialReads

/-! What the tasks of the daemon know about the registry at each of their
steps, whoever else changes it meanwhile. -/
namespace Rusbmux

/-- The device whose entry the task has taken out. -/
def UsbTask.gone : UsbTask → Option ℕ
  | removed id _ | leaving id | lost id _ | reopening id _ => some id
  | _ => none

namespace Daemon

/-- The facts that the tasks rely on. -/
structure Sound (d : Daemon) : Prop where
  known : ∀ id, (d.devices.get id).isSome = true → id ∈ d.ids
  reader : ∀ id o, d.readers.get id = some o → id ∈ d.ids ∧
    ∀ e, d.devices.get id = some e → e.isUsb = true ∧ e.opaqueId = o
  arrival : ∀ id, d.usb.arrival = some id → id ∉ d.ids ∧ d.adding.get id = none
  gone : ∀ id, d.usb.gone = some id → id ∈ d.ids ∧ d.devices.get id = none
  reopened : ∀ id, d.usb = .reopened id → id ∈ d.ids ∧
    ∀ e, d.devices.get id = some e → e.isUsb = true
  connecting : ∀ id mac serial, d.adding.get id = some (.connecting mac serial) → id ∉ d.ids
  inserted : ∀ id serial, d.adding.get id = some (.inserted serial) → id ∈ d.ids ∧
    ∀ e, d.devices.get id = some e → e.isUsb = false ∧ e.serialNumber = serial
  announcing : ∀ id, d.adding.get id = some .announcing → id ∈ d.ids ∧
    ∀ e, d.devices.get id = some e → e.isUsb = false ∧ d.devices.shown id = true
  removing : ∀ id task, d.removing.get id = some task → id ∈ d.ids ∧ d.devices.get id = none
  /-- A USB device and a network device never have the same id. -/
  apart : ∀ id, d.adding.get id ≠ none ∨ d.removing.get id ≠ none →
    d.readers.get id = none ∧ d.usb.gone ≠ some id
  single : ∀ i j mac mac' serial, d.devices.get i = some (.network mac serial) →
    d.devices.get j = some (.network mac' serial) → i = j

/-- What keeps the tasks' events true of the registry. A USB device is inserted
only where it covers no network device that is shown, a device that comes back
only while no network device with its serial number waits for the search before
its detach event, and a network device only once for its serial number. The
shutdown in `remove_device` succeeds, and the twin that it announces has no
other USB device. The entries that go for a notice are those of its device and
ones that are not shown, and what they uncover is still to be announced. -/
def Clean (d : Daemon) : Action → Prop
  | .usbInsert => ∀ id info, d.usb = .retained id info →
    d.devices.coversNone (Device.usb info).serialNumber = true
  | .reopen info => d.devices.coversNone (Device.usb info).serialNumber = true ∧
    ∀ n, d.removing.get n ≠ some (.removed (Device.usb info).serialNumber)
  | .networkInsert id => ∀ mac serial, d.adding.get id = some (.connecting mac serial) →
    d.devices.hasNetwork serial = false
  | .shutdownFails => False
  | .announceTwin twin => ∀ id info, d.usb = .removed id info → twin ≠ none →
    d.devices.hasUsb (Device.usb info).serialNumber = false
  | .notice id => ∀ o, d.readers.get id = some o →
    let devices := d.devices.retain fun _ e => e.opaqueId != o
    ∀ j, (d.devices.shown j = true → j = id ∨ (devices.get j).isSome = true) ∧
      (Registry.shown devices j = true →
        d.devices.shown j = true ∨ ∃ serial, d.adding.get j = some (.inserted serial))
  | _ => True

/-- What a step does, one case for each way to take one. -/
inductive Move (reads : SerialReads) (d : Daemon) : Action → Daemon → Option DeviceEvent → Prop
  | usbConnected (id : ℕ) (info : DeviceInfo) (twin : Option ℕ) (hu : d.usb = .idle)
      (hid : d.isNew id = true)
      (htwin : d.devices.findsRead reads (.usb info) twin = true) :
      Move reads d (.usbConnected id info twin) { d with usb := .arrived id info }
        (twin.map .detached)
  | usbRetain (id : ℕ) (info : DeviceInfo) (hu : d.usb = .arrived id info) :
      Move reads d .usbRetain { d with
        devices := d.devices.retainOthers reads (.usb info)
        usb := .retained id info } none
  | usbInsert (id : ℕ) (info : DeviceInfo) (hu : d.usb = .retained id info) :
      Move reads d .usbInsert { d with
        devices := d.devices.insert id (.usb info)
        ids := id :: d.ids
        readers := d.readers.insert id info.opaqueId
        usb := .idle } none
  | usbDisconnected (id : ℕ) (info : DeviceInfo) (hu : d.usb = .idle)
      (he : d.devices.get id = some (.usb info)) :
      Move reads d (.usbDisconnected id)
        { d with devices := d.devices.remove id, usb := .removed id info } none
  | deviceNotFound (id : ℕ) (hu : d.usb = .idle) (he : d.devices.get id = none) :
      Move reads d (.usbDisconnected id) d none
  | shutdownFails (id : ℕ) (info : DeviceInfo) (hu : d.usb = .removed id info) :
      Move reads d .shutdownFails { d with usb := .idle } none
  | announceTwin (id : ℕ) (info : DeviceInfo) (twin : Option ℕ) (hu : d.usb = .removed id info)
      (htwin : d.devices.findsRead reads (.usb info) twin = true) :
      Move reads d (.announceTwin twin) { d with usb := .leaving id } (twin.map .attached)
  | left (id : ℕ) (hu : d.usb = .leaving id) :
      Move reads d .sendDetached { d with usb := .idle } (some (.detached id))
  | notice (id : ℕ) (o : UInt64) (hu : d.usb = .idle) (ho : d.readers.get id = some o) :
      Move reads d (.notice id) { d with
        devices := d.devices.retain fun _ e => e.opaqueId != o
        readers := d.readers.remove id
        usb := .lost id o } none
  | lost (id : ℕ) (o : UInt64) (hu : d.usb = .lost id o) :
      Move reads d .sendDetached { d with usb := .reopening id o } (some (.detached id))
  | reopenFails (id : ℕ) (o : UInt64) (hu : d.usb = .reopening id o) :
      Move reads d .reopenFails { d with usb := .idle } none
  | reopen (id : ℕ) (info : DeviceInfo) (hu : d.usb = .reopening id info.opaqueId) :
      Move reads d (.reopen info) { d with
        devices := d.devices.insert id (.usb info)
        readers := d.readers.insert id info.opaqueId
        usb := .reopened id } none
  | reopened (id : ℕ) (hu : d.usb = .reopened id) :
      Move reads d .sendAttached { d with usb := .idle } (some (.attached id))
  | alreadyAdded (id : ℕ) (mac serial : String) :
      Move reads d (.serviceResolved id mac serial) d none
  | serviceResolved (id : ℕ) (mac serial : String) (hid : d.isNew id = true) :
      Move reads d (.serviceResolved id mac serial)
        { d with adding := d.adding.insert id (.connecting mac serial) } none
  | networkFails (id : ℕ) (mac serial : String)
      (ht : d.adding.get id = some (.connecting mac serial)) :
      Move reads d (.networkFails id) { d with adding := d.adding.remove id } none
  | networkInsert (id : ℕ) (mac serial : String)
      (ht : d.adding.get id = some (.connecting mac serial)) :
      Move reads d (.networkInsert id) { d with
        devices := d.devices.insert id (.network mac serial)
        ids := id :: d.ids
        adding := d.adding.insert id (.inserted serial) } none
  | addCovered (id : ℕ) (serial : String) (ht : d.adding.get id = some (.inserted serial))
      (hu : d.devices.hasUsbRead reads serial = true) :
      Move reads d (.networkCheck id) { d with adding := d.adding.remove id } none
  | addShown (id : ℕ) (serial : String) (ht : d.adding.get id = some (.inserted serial))
      (hu : d.devices.hasUsbRead reads serial = false) :
      Move reads d (.networkCheck id) { d with adding := d.adding.insert id .announcing } none
  | networkAttached (id : ℕ) (ht : d.adding.get id = some .announcing) :
      Move reads d (.networkAttached id) { d with adding := d.adding.remove id }
        (some (.attached id))
  | takeNetwork (a : Action) (id : ℕ) (mac serial : String)
      (ha : a = .serviceRemoved id mac ∨ a = .heartbeatFails id)
      (he : d.devices.get id = some (.network mac serial)) :
      Move reads d a (d.takeNetwork id serial) none
  | removalCovered (id : ℕ) (serial : String) (ht : d.removing.get id = some (.removed serial))
      (hu : d.devices.hasUsbRead reads serial = true) :
      Move reads d (.removalCheck id) { d with removing := d.removing.remove id } none
  | removalShown (id : ℕ) (serial : String) (ht : d.removing.get id = some (.removed serial))
      (hu : d.devices.hasUsbRead reads serial = false) :
      Move reads d (.removalCheck id) { d with removing := d.removing.insert id .announcing } none
  | removalDetached (id : ℕ) (ht : d.removing.get id = some .announcing) :
      Move reads d (.removalDetached id) { d with removing := d.removing.remove id }
        (some (.detached id))

theorem move_of_stepUsb {reads : SerialReads} {d d' : Daemon} {a : Action}
    {e : Option DeviceEvent} {u : UsbTask} (hu : d.usb = u)
    (h : d.stepUsb reads u a = some (d', e)) : Move reads d a d' e := by
  unfold stepUsb at h
  split at h
  · -- the id is new, and the search for the twin gives what it may
    split_ifs at h with hc
    rw [Bool.and_eq_true] at hc
    cases h
    exact .usbConnected _ _ _ hu hc.1 hc.2
  · cases h
    exact .usbRetain _ _ hu
  · cases h
    exact .usbInsert _ _ hu
  · split at h
    · rename_i he
      cases h
      exact .usbDisconnected _ _ hu he
    · cases h
    · rename_i he
      cases h
      exact .deviceNotFound _ hu he
  · cases h
    exact .shutdownFails _ _ hu
  · split_ifs at h with hc
    cases h
    exact .announceTwin _ _ _ hu hc
  · cases h
    exact .left _ hu
  · obtain ⟨o, ho, hd⟩ := Option.map_eq_some_iff.mp h
    cases hd
    exact .notice _ _ hu ho
  · cases h
    exact .lost _ _ hu
  · cases h
    exact .reopenFails _ _ hu
  · split_ifs at h with hc
    subst hc
    cases h
    exact .reopen _ _ hu
  · cases h
    exact .reopened _ hu
  · cases h

theorem move_of_stepNetwork {reads : SerialReads} {d d' : Daemon} {a : Action}
    {e : Option DeviceEvent} (h : d.stepNetwork reads a = some (d', e)) :
    Move reads d a d' e := by
  unfold stepNetwork at h
  split at h
  · -- a service under an id that is known, or a new one
    split_ifs at h with hn hid
    · cases h
      exact .alreadyAdded _ _ _
    · cases h
      exact .serviceResolved _ _ _ hid
  · split at h
    · rename_i ht
      cases h
      exact .networkFails _ _ _ ht
    · cases h
  · split at h
    · rename_i ht
      cases h
      exact .networkInsert _ _ _ ht
    · cases h
  · split at h
    · rename_i ht
      split_ifs at h with hu
      · cases h
        exact .addCovered _ _ ht hu
      · cases h
        exact .addShown _ _ ht (Bool.eq_false_iff.mpr hu)
    · cases h
  · split at h
    · rename_i ht
      cases h
      exact .networkAttached _ ht
    · cases h
  · split at h
    · rename_i he
      split_ifs at h with hm
      subst hm
      cases h
      exact .takeNetwork _ _ _ _ (.inl rfl) he
    · cases h
  · split at h
    · rename_i he
      cases h
      exact .takeNetwork _ _ _ _ (.inr rfl) he
    · cases h
  · split at h
    · rename_i ht
      split_ifs at h with hu
      · cases h
        exact .removalCovered _ _ ht hu
      · cases h
        exact .removalShown _ _ ht (Bool.eq_false_iff.mpr hu)
    · cases h
  · split at h
    · rename_i ht
      cases h
      exact .removalDetached _ ht
    · cases h
  · cases h

theorem move_of_stepRead {reads : SerialReads} {d d' : Daemon} {a : Action}
    {e : Option DeviceEvent} (h : d.stepRead reads a = some (d', e)) : Move reads d a d' e := by
  rw [stepRead] at h
  cases hs : d.stepUsb reads d.usb a with
  | none =>
    rw [hs] at h
    exact move_of_stepNetwork h
  | some r =>
    rw [hs] at h
    cases h
    exact move_of_stepUsb rfl hs

theorem move_of_step {d d' : Daemon} {a : Action} {e : Option DeviceEvent}
    (h : d.step a = some (d', e)) : Move .own d a d' e := move_of_stepRead h

theorem sound_start : start.Sound := by
  constructor <;> simp [start, UsbTask.arrival, UsbTask.gone]

theorem isNew_eq_true_iff {d : Daemon} {id : ℕ} :
    d.isNew id = true ↔ id ∉ d.ids ∧ d.adding.get id = none ∧ d.usb.arrival ≠ some id := by
  simp [isNew, and_assoc]

section

variable {d : Daemon} (h : d.Sound)
include h

theorem Sound.get_eq_none {id : ℕ} (hid : id ∉ d.ids) : d.devices.get id = none := by
  have hk := mt (h.known id) hid
  simpa using hk

theorem Sound.tasks_of_reader {id : ℕ} {o : UInt64} (ho : d.readers.get id = some o) :
    d.adding.get id = none ∧ d.removing.get id = none := by
  by_contra hne
  rw [not_and_or] at hne
  have hnone := (h.apart id hne).1
  rw [ho] at hnone
  cases hnone

theorem Sound.tasks_of_gone {id : ℕ} (hg : d.usb.gone = some id) :
    d.adding.get id = none ∧ d.removing.get id = none := by
  by_contra hne
  rw [not_and_or] at hne
  exact (h.apart id hne).2 hg

theorem Sound.tasks_of_usb {id : ℕ} {info : DeviceInfo}
    (he : d.devices.get id = some (.usb info)) :
    d.adding.get id = none ∧ d.removing.get id = none := by
  have hid := h.known id (by rw [he]; rfl)
  constructor
  · apply Option.eq_none_iff_forall_ne_some.mpr
    intro task ht
    cases task with
    | connecting mac serial => exact h.connecting id mac serial ht hid
    | inserted serial => exact Bool.true_eq_false.mp ((h.inserted id serial ht).2 _ he).1
    | announcing => exact Bool.true_eq_false.mp ((h.announcing id ht).2 _ he).1
  · -- a removal has taken its entry out
    apply Option.eq_none_iff_forall_ne_some.mpr
    intro task ht
    have hnone := (h.removing id task ht).2
    rw [he] at hnone
    cases hnone

/-- Entries go, and the USB task takes its step. -/
theorem Sound.retain (p : ℕ → Device → Bool) (usb : UsbTask)
    (ha : ∀ id, usb.arrival = some id → d.usb.arrival = some id)
    (hg : ∀ id, usb.gone = some id → id ∈ d.ids ∧ (d.devices.retain p).get id = none ∧
      d.adding.get id = none ∧ d.removing.get id = none)
    (hr : ∀ id, usb = .reopened id → d.usb = .reopened id) :
    Sound { d with devices := d.devices.retain p, usb := usb } := by
  have hsub : ∀ id e, (d.devices.retain p).get id = some e → d.devices.get id = some e :=
    fun id e he => ((d.devices.get_retain_eq_some_iff p id e).mp he).1
  constructor
  case known =>
    intro id hid
    obtain ⟨e, he⟩ := Option.isSome_iff_exists.mp hid
    exact h.known id (by rw [hsub id e he]; rfl)
  case reader =>
    intro id o ho
    exact ⟨(h.reader id o ho).1, fun e he => (h.reader id o ho).2 e (hsub id e he)⟩
  case arrival => exact fun id hid => h.arrival id (ha id hid)
  case gone => exact fun id hid => ⟨(hg id hid).1, (hg id hid).2.1⟩
  case reopened =>
    intro id hid
    have hre := h.reopened id (hr id hid)
    exact ⟨hre.1, fun e he => hre.2 e (hsub id e he)⟩
  case connecting => exact h.connecting
  case inserted =>
    intro id serial hs
    exact ⟨(h.inserted id serial hs).1, fun e he => (h.inserted id serial hs).2 e (hsub id e he)⟩
  case announcing =>
    intro id hs
    refine ⟨(h.announcing id hs).1, fun e he => ?_⟩
    have hold := (h.announcing id hs).2 e (hsub id e he)
    exact ⟨hold.1, Registry.shown_retain hold.2 (by rw [he]; rfl)⟩
  case removing =>
    intro id task ht
    refine ⟨(h.removing id task ht).1, ?_⟩
    rw [KeyTable.get_retain, (h.removing id task ht).2]
    rfl
  case apart =>
    intro id hid
    refine ⟨(h.apart id hid).1, fun hgone => ?_⟩
    have hnone := hg id hgone
    exact hid.elim (absurd hnone.2.2.1) (absurd hnone.2.2.2)
  case single =>
    exact fun i j mac mac' serial hi hj =>
      h.single i j mac mac' serial (hsub i _ hi) (hsub j _ hj)

/-- The entries of the opaque id are gone, the one of the reader among them. -/
theorem Sound.notice {id : ℕ} {o : UInt64} (ho : d.readers.get id = some o) :
    Sound { d with
      devices := d.devices.retain fun _ e => e.opaqueId != o
      readers := d.readers.remove id
      usb := .lost id o } := by
  have hr := h.reader id o ho
  -- the reader's own entry has its opaque id
  have hgone : (d.devices.retain fun _ e => e.opaqueId != o).get id = none := by
    rw [KeyTable.get_retain, Option.filter_eq_none_iff]
    intro e he
    simp [(hr.2 e he).2]
  have hs := h.retain (fun _ e => e.opaqueId != o) (.lost id o) nofun
    (by rintro j ⟨⟩; exact ⟨hr.1, hgone, h.tasks_of_reader ho⟩) nofun
  refine { hs with reader := ?_, apart := ?_ }
  · intro j o' hj
    rw [KeyTable.get_remove] at hj
    split_ifs at hj
    exact hs.reader j o' hj
  · intro j hj
    have := hs.apart j hj
    grind [KeyTable.get_remove]

/-- A USB device comes in under an id that has no entry. -/
theorem Sound.insertUsb {id : ℕ} (info : DeviceInfo) (usb : UsbTask)
    (ids : List ℕ) (hids : ∀ j, j ∈ ids ↔ j = id ∨ j ∈ d.ids)
    (hid : d.devices.get id = none)
    (hc : d.devices.coversNone (Device.usb info).serialNumber = true)
    (ht : d.adding.get id = none ∧ d.removing.get id = none)
    (ha : usb.arrival = none) (hg : usb.gone = none) (hr : ∀ j, usb = .reopened j → j = id) :
    Sound { d with
      devices := d.devices.insert id (.usb info)
      ids := ids
      readers := d.readers.insert id info.opaqueId
      usb := usb } := by
  constructor
  case known =>
    intro j hj
    have hknown := h.known j
    grind [KeyTable.get_insert]
  case reader =>
    intro j o ho
    have hreader := h.reader j
    grind [KeyTable.get_insert, Device.isUsb, Device.opaqueId]
  case arrival => grind
  case gone => grind
  case reopened =>
    intro j hj
    have hre := h.reopened j
    grind [KeyTable.get_insert, Device.isUsb, Device.opaqueId]
  case connecting =>
    intro j mac serial hj
    have hconn := h.connecting j mac serial
    grind
  case inserted =>
    intro j serial hj
    have hins := h.inserted j serial
    grind [KeyTable.get_insert]
  case announcing =>
    intro j hj
    have hann := h.announcing j
    have hshown := @Registry.shown_insert_usb d.devices id j info
    grind [KeyTable.get_insert]
  case removing =>
    intro j task hj
    have hrem := h.removing j task
    grind [KeyTable.get_insert]
  case apart =>
    intro j hj
    have hapart := h.apart j hj
    grind [KeyTable.get_insert]
  case single =>
    intro i j mac mac' serial
    have hsingle := h.single i j mac mac' serial
    grind [KeyTable.get_insert]

/-- A network device comes in that is the only one with its serial number. -/
theorem Sound.networkInsert {id : ℕ} {mac serial : String}
    (ht : d.adding.get id = some (.connecting mac serial))
    (hc : d.devices.hasNetwork serial = false) :
    Sound { d with
      devices := d.devices.insert id (.network mac serial)
      ids := id :: d.ids
      adding := d.adding.insert id (.inserted serial) } := by
  have hnew := h.connecting id mac serial ht
  have hid := h.get_eq_none hnew
  have hother : ∀ j m, d.devices.get j ≠ some (.network m serial) := by
    intro j m hj
    exact Bool.false_ne_true (hc.symm.trans (Registry.hasNetwork_eq_true_iff.mpr ⟨j, m, hj⟩))
  constructor
  case known =>
    intro j hj
    have hknown := h.known j
    grind [KeyTable.get_insert]
  case reader =>
    intro j o ho
    have hreader := h.reader j
    grind [KeyTable.get_insert]
  case arrival =>
    intro j hj
    have harr := h.arrival j
    grind [KeyTable.get_insert]
  case gone =>
    intro j hj
    have hgone := h.gone j
    grind [KeyTable.get_insert]
  case reopened =>
    intro j hj
    have hre := h.reopened j
    grind [KeyTable.get_insert]
  case connecting =>
    intro j m s hj
    have hconn := h.connecting j m s
    grind [KeyTable.get_insert]
  case inserted =>
    intro j s hj
    have hins := h.inserted j s
    grind [KeyTable.get_insert, Device.isUsb, Device.serialNumber]
  case announcing =>
    intro j hj
    have hann := h.announcing j
    have hshown := @Registry.shown_insert_network d.devices id j mac serial hid
    grind [KeyTable.get_insert]
  case removing =>
    intro j task hj
    have hrem := h.removing j task
    grind [KeyTable.get_insert]
  case apart =>
    intro j hj
    have hapart := h.apart j
    have hapart' := h.apart id
    grind [KeyTable.get_insert]
  case single =>
    intro i j m m' s
    have hsingle := h.single i j m m' s
    grind [KeyTable.get_insert]

/-- The entry of a network device goes to the task that removes it. -/
theorem Sound.takeNetwork {id : ℕ} {mac serial : String}
    (he : d.devices.get id = some (.network mac serial)) : (d.takeNetwork id serial).Sound := by
  have hid := h.known id (by rw [he]; rfl)
  have hgone : ∀ j, d.usb.gone = some j → j ∈ d.ids ∧ (d.devices.remove id).get j = none ∧
      d.adding.get j = none ∧ d.removing.get j = none := by
    intro j hj
    have hgone := h.gone j hj
    have htasks := h.tasks_of_gone hj
    grind [KeyTable.get_remove]
  have hs := h.retain (fun j _ => j ≠ id) d.usb (fun _ hj => hj) hgone (fun _ hj => hj)
  refine { hs with removing := ?_, apart := ?_ }
  · intro j task hj
    have hrem := h.removing j
    change (d.removing.insert id _).get j = some task at hj
    change j ∈ d.ids ∧ (d.devices.remove id).get j = none
    grind [KeyTable.get_insert, KeyTable.get_remove]
  · intro j hj
    change d.adding.get j ≠ none ∨ (d.removing.insert id _).get j ≠ none at hj
    change d.readers.get j = none ∧ d.usb.gone ≠ some j
    have hapart := h.apart j
    have hgone := h.gone j
    have hreader := h.reader j
    cases hr : d.readers.get j <;> grind [KeyTable.get_insert, Device.isUsb]

/-- The USB task takes a step that leaves the registry. -/
theorem Sound.setUsb (usb : UsbTask)
    (ha : ∀ id, usb.arrival = some id → id ∉ d.ids ∧ d.adding.get id = none)
    (hg : ∀ id, usb.gone = some id → d.usb.gone = some id) (hr : ∀ id, usb ≠ .reopened id) :
    Sound { d with usb := usb } :=
  { h with
    arrival := ha
    gone := fun id hid => h.gone id (hg id hid)
    reopened := fun id hid => absurd hid (hr id)
    apart := fun id hid => ⟨(h.apart id hid).1, fun hu => (h.apart id hid).2 (hg id hu)⟩ }

/-- A task of a new network device ends. -/
theorem Sound.endAdding (id : ℕ) : Sound { d with adding := d.adding.remove id } := by
  refine { h with
    arrival := ?_, connecting := ?_, inserted := ?_, announcing := ?_, apart := ?_ }
  · intro j hj
    have harr := h.arrival j hj
    grind [KeyTable.get_remove]
  · intro j mac serial hj
    have hconn := h.connecting j mac serial
    grind [KeyTable.get_remove]
  · intro j serial hj
    have hins := h.inserted j serial
    grind [KeyTable.get_remove]
  · intro j hj
    have hann := h.announcing j
    grind [KeyTable.get_remove]
  · intro j hj
    have hapart := h.apart j
    grind [KeyTable.get_remove]

theorem Sound.serviceResolved {id : ℕ} (mac serial : String) (hid : d.isNew id = true) :
    Sound { d with adding := d.adding.insert id (.connecting mac serial) } := by
  have hnew := isNew_eq_true_iff.mp hid
  refine { h with
    arrival := ?_, connecting := ?_, inserted := ?_, announcing := ?_, apart := ?_ }
  · intro j hj
    have harr := h.arrival j hj
    grind [KeyTable.get_insert]
  · intro j m s hj
    have hconn := h.connecting j m s
    grind [KeyTable.get_insert]
  · intro j s hj
    have hins := h.inserted j s
    grind [KeyTable.get_insert]
  · intro j hj
    have hann := h.announcing j
    grind [KeyTable.get_insert]
  · intro j hj
    have hapart := h.apart j
    have hgone := h.gone j
    have hreader := h.reader j
    cases hr : d.readers.get j <;> grind [KeyTable.get_insert]

/-- The search of a new network device finds no USB device. -/
theorem Sound.addShown {id : ℕ} {serial : String} (ht : d.adding.get id = some (.inserted serial))
    (hu : d.devices.hasUsb serial = false) :
    Sound { d with adding := d.adding.insert id .announcing } := by
  have hins := h.inserted id serial ht
  have hshown : ∀ e, d.devices.get id = some e → d.devices.shown id = true := by
    intro e he
    refine Registry.shown_eq_true_iff.mpr ⟨e, he, .inr ?_⟩
    rw [(hins.2 e he).2, hu]
  refine { h with
    arrival := ?_, connecting := ?_, inserted := ?_, announcing := ?_, apart := ?_ }
  · intro j hj
    have harr := h.arrival j hj
    grind [KeyTable.get_insert]
  · intro j m s hj
    have hconn := h.connecting j m s
    grind [KeyTable.get_insert]
  · intro j s hj
    have hins := h.inserted j s
    grind [KeyTable.get_insert]
  · intro j hj
    have hann := h.announcing j
    grind [KeyTable.get_insert]
  · intro j hj
    have hapart := h.apart j
    grind [KeyTable.get_insert]

/-- Removals go on or end. -/
theorem Sound.setRemoving (removing : KeyTable ℕ RemoveTask)
    (hs : ∀ id task, removing.get id = some task → ∃ t, d.removing.get id = some t) :
    Sound { d with removing := removing } := by
  refine { h with removing := ?_, apart := ?_ }
  · intro id task ht
    obtain ⟨t, hd⟩ := hs id task ht
    exact h.removing id t hd
  · rintro id (ha | hr)
    · exact h.apart id (.inl ha)
    · obtain ⟨task, ht⟩ := Option.ne_none_iff_exists'.mp hr
      obtain ⟨t, hd⟩ := hs id task ht
      exact h.apart id (.inr (by rw [hd]; exact Option.some_ne_none t))

/-- A removal ends. -/
theorem Sound.endRemoving (id : ℕ) : Sound { d with removing := d.removing.remove id } := by
  apply h.setRemoving
  intro j task hj
  rw [KeyTable.get_remove] at hj
  split_ifs at hj
  exact ⟨task, hj⟩

/-- A removal goes on for an id that has one. -/
theorem Sound.goOnRemoving {id : ℕ} {former : RemoveTask} (task : RemoveTask)
    (ht : d.removing.get id = some former) :
    Sound { d with removing := d.removing.insert id task } := by
  apply h.setRemoving
  intro j task' hj
  rw [KeyTable.get_insert] at hj
  split_ifs at hj with hji
  · subst hji
    exact ⟨former, ht⟩
  · exact ⟨task', hj⟩

end

/-- Every clean step keeps what the tasks know. -/
theorem Sound.step {d d' : Daemon} {a : Action} {e : Option DeviceEvent} (h : d.Sound)
    (hc : d.Clean a) (hm : Move .own d a d' e) : d'.Sound := by
  cases hm with
  | usbConnected id info twin hu hid htwin =>
    -- `take_new_id` gives an id that nobody has
    have hnew := isNew_eq_true_iff.mp hid
    apply h.setUsb (.arrived id info)
    · rintro j ⟨⟩
      exact ⟨hnew.1, hnew.2.1⟩
    · nofun
    · nofun
  | usbRetain id info hu =>
    apply h.retain _ (.retained id info)
    · rintro j ⟨⟩
      rw [hu]
      rfl
    · nofun
    · nofun
  | usbInsert id info hu =>
    have harr := h.arrival id (by rw [hu]; rfl)
    -- no removal is under way for an id that the registry has not had
    have hrem : d.removing.get id = none := by
      by_contra hne
      obtain ⟨task, ht⟩ := Option.ne_none_iff_exists'.mp hne
      exact harr.1 (h.removing id task ht).1
    exact h.insertUsb info .idle (id :: d.ids) (fun j => List.mem_cons) (h.get_eq_none harr.1)
      (hc id info hu) ⟨harr.2, hrem⟩ rfl rfl nofun
  | usbDisconnected id info hu he =>
    apply h.retain (fun j _ => j ≠ id) (.removed id info)
    · nofun
    · rintro j ⟨⟩
      exact ⟨h.known id (by rw [he]; rfl), d.devices.get_remove_self id, h.tasks_of_usb he⟩
    · nofun
  | deviceNotFound id hu he => exact h
  | shutdownFails id info hu => exact hc.elim
  | announceTwin id info twin hu htwin =>
    apply h.setUsb (.leaving id)
    · nofun
    · rintro j ⟨⟩
      rw [hu]
      rfl
    · nofun
  | left id hu => exact h.setUsb .idle nofun nofun nofun
  | notice id o hu ho => exact h.notice ho
  | lost id o hu =>
    apply h.setUsb (.reopening id o)
    · nofun
    · rintro j ⟨⟩
      rw [hu]
      rfl
    · nofun
  | reopenFails id o hu => exact h.setUsb .idle nofun nofun nofun
  | reopen id info hu =>
    have hgone : d.usb.gone = some id := by rw [hu]; rfl
    have hold := h.gone id hgone
    -- the device comes back under its old id
    have hids : ∀ j, j ∈ d.ids ↔ j = id ∨ j ∈ d.ids := by
      intro j
      refine ⟨.inr, ?_⟩
      rintro (rfl | hj)
      · exact hold.1
      · exact hj
    apply h.insertUsb info (.reopened id) d.ids hids hold.2 hc.1 (h.tasks_of_gone hgone) rfl rfl
    rintro j ⟨⟩
    rfl
  | reopened id hu => exact h.setUsb .idle nofun nofun nofun
  | alreadyAdded id mac serial => exact h
  | serviceResolved id mac serial hid => exact h.serviceResolved mac serial hid
  | networkFails id mac serial ht => exact h.endAdding id
  | networkInsert id mac serial ht => exact h.networkInsert ht (hc mac serial ht)
  | addCovered id serial ht hu => exact h.endAdding id
  | addShown id serial ht hu => exact h.addShown ht hu
  | networkAttached id ht => exact h.endAdding id
  | takeNetwork a id mac serial ha he => exact h.takeNetwork he
  | removalCovered id serial ht hu => exact h.endRemoving id
  | removalShown id serial ht hu => exact h.goOnRemoving .announcing ht
  | removalDetached id ht => exact h.endRemoving id

end Daemon

end Rusbmux
