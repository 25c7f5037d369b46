import Rusbmux.KeyTable
import Mathlib.Data.Nat.Notation

/-! `CONNECTED_DEVICES` and the events that the watchers broadcast about it:
src/watcher/mod.rs, and what the watchers read of src/device/mod.rs. -/
namespace Rusbmux

def APPLE_VID : UInt16 := 0x5ac

/-- What the watchers read of `AnyDeviceInfo`. -/
structure DeviceInfo where
  vendorId : UInt16
  serialNumber : Option String
  opaqueId : UInt64
  deriving DecidableEq, Repr

/-- A device without its id, which is the key of its entry. -/
inductive Device where
  | usb (info : DeviceInfo)
  | network (macAddress serialNumber : String)
  deriving DecidableEq, Repr

inductive DeviceEvent where
  | attached (id : ℕ)
  | detached (id : ℕ)
  deriving DecidableEq, Repr

namespace Device

/-- The serial number that the device has. -/
def serialNumber : Device → String
  | usb info => info.serialNumber.getD ""
  | network _ serialNumber => serialNumber

/-- A call of `serial_number`. rusb opens a USB device again for it, and what it
gives is empty when that fails. -/
def serialNumberRead : Bool → Device → String
  | true, d => d.serialNumber
  | false, usb _ => ""
  | false, network _ serialNumber => serialNumber

@[simp] theorem serialNumberRead_network (ok : Bool) (macAddress name : String) :
    (network macAddress name).serialNumberRead ok = name := by
  cases ok <;> rfl

def isUsb : Device → Bool
  | usb _ => true
  | network _ _ => false

def isNetwork (d : Device) : Bool := !d.isUsb

/-- `d.as_usb().map(|d| d.info.opaque_id()).unwrap_or_default()` -/
def opaqueId : Device → UInt64
  | usb info => info.opaqueId
  | network _ _ => 0

/-- A USB device with the serial number. -/
def isUsbOf (serial : String) (d : Device) : Bool := d.isUsb && d.serialNumber == serial

/-- A network device with the serial number. -/
def isNetworkOf (serial : String) (d : Device) : Bool := d.isNetwork && d.serialNumber == serial

end Device

/-- Which calls of `serial_number` for a USB device succeed in a search, by the
entry that it is at. With nusb, which keeps the number, all of them do. -/
structure SerialReads where
  /-- For the device that the task has in hand. -/
  held : ℕ → Bool
  /-- For the device of the entry. -/
  entry : ℕ → Bool

def SerialReads.own : SerialReads := ⟨fun _ => true, fun _ => true⟩

abbrev Registry := KeyTable ℕ Device

namespace Registry

/-- Whether a USB device with the serial number is connected. -/
def hasUsb (devices : Registry) (serial : String) : Bool :=
  devices.any fun _ d => d.isUsbOf serial

def hasNetwork (devices : Registry) (serial : String) : Bool :=
  devices.any fun _ d => d.isNetworkOf serial

/-- What a search for a network device with the serial number may return. -/
def finds (devices : Registry) (serial : String) : Option ℕ → Bool
  | none => !devices.hasNetwork serial
  | some id => (devices.get id).any fun d => d.isNetworkOf serial

/-- Whether a search finds a USB device with the serial number. -/
def hasUsbRead (devices : Registry) (reads : SerialReads) (serial : String) : Bool :=
  devices.any fun k d => d.isUsb && d.serialNumberRead (reads.entry k) == serial

/-- What a search for a network device with the serial number of the device in
hand may return. -/
def findsRead (devices : Registry) (reads : SerialReads) (device : Device) : Option ℕ → Bool
  | none => !devices.any fun k d => d.isNetworkOf (device.serialNumberRead (reads.held k))
  | some id => (devices.get id).any fun d => d.isNetworkOf (device.serialNumberRead (reads.held id))

/-- `retain`, which keeps the entries whose serial number is not that of the device
in hand. -/
def retainOthers (devices : Registry) (reads : SerialReads) (device : Device) : Registry :=
  devices.retain fun k d =>
    d.serialNumberRead (reads.entry k) != device.serialNumberRead (reads.held k)

/-- Whether the entry is there with one device exposed for each serial number:
the USB device if there is one, otherwise the network device. -/
def shown (devices : Registry) (id : ℕ) : Bool :=
  (devices.get id).any fun d => d.isUsb || !devices.hasUsb d.serialNumber

/-- The filter of `send_currently_connected`. -/
def listed (devices : Registry) (id : ℕ) : Bool :=
  (devices.get id).any fun d =>
    d.isUsb || !devices.any fun other e => e.serialNumber == d.serialNumber && other != id

def listedRead (devices : Registry) (reads : SerialReads) (id : ℕ) : Bool :=
  (devices.get id).any fun d =>
    d.isUsb || !devices.any fun other e =>
      e.serialNumberRead (reads.entry other) == d.serialNumber && other != id

/-- A USB device with the serial number would cover no network device that is shown. -/
def coversNone (devices : Registry) (serial : String) : Bool :=
  !devices.hasNetwork serial || devices.hasUsb serial

variable {devices : Registry} {id j : ℕ} {serial : String}

@[simp] theorem hasUsbRead_own : devices.hasUsbRead .own serial = devices.hasUsb serial := rfl

@[simp] theorem findsRead_own (device : Device) (twin : Option ℕ) :
    devices.findsRead .own device twin = devices.finds device.serialNumber twin := by
  cases twin <;> rfl

@[simp] theorem retainOthers_own (device : Device) : devices.retainOthers .own device =
    devices.retain fun _ d => d.serialNumber != device.serialNumber := rfl

@[simp] theorem listedRead_own : devices.listedRead .own id = devices.listed id := rfl

theorem hasUsb_eq_true_iff :
    devices.hasUsb serial = true ↔
      ∃ k e, devices.get k = some e ∧ e.isUsb = true ∧ e.serialNumber = serial := by
  simp only [hasUsb, KeyTable.any_eq_true_iff, Device.isUsbOf, Bool.and_eq_true, beq_iff_eq]

theorem hasUsb_eq_false_iff :
    devices.hasUsb serial = false ↔
      ∀ k e, devices.get k = some e → e.isUsb = true → e.serialNumber ≠ serial := by
  rw [← Bool.not_eq_true, hasUsb_eq_true_iff]
  push Not
  rfl

theorem shown_eq_true_iff :
    devices.shown id = true ↔
      ∃ e, devices.get id = some e ∧ (e.isUsb = true ∨ devices.hasUsb e.serialNumber = false) := by
  cases h : devices.get id <;> simp [shown, h]

theorem isSome_of_shown (h : devices.shown id = true) : (devices.get id).isSome = true := by
  obtain ⟨e, he, -⟩ := shown_eq_true_iff.mp h
  simp only [he, Option.isSome_some]

theorem shown_of_get_eq_none (h : devices.get id = none) : devices.shown id = false := by
  simp only [shown, h, Option.any_none]

theorem hasUsb_of_retain {p : ℕ → Device → Bool}
    (h : hasUsb (devices.retain p) serial = true) : devices.hasUsb serial = true := by
  obtain ⟨k, e, hk, he⟩ := hasUsb_eq_true_iff.mp h
  have hget := ((devices.get_retain_eq_some_iff p k e).mp hk).1
  exact hasUsb_eq_true_iff.mpr ⟨k, e, hget, he⟩

theorem hasUsb_retain_eq_false {p : ℕ → Device → Bool} (h : devices.hasUsb serial = false) :
    hasUsb (devices.retain p) serial = false := by
  rw [← Bool.not_eq_true] at h ⊢
  exact fun ht => h (hasUsb_of_retain ht)

/-- A network device that goes uncovers no other. -/
theorem hasUsb_of_remove_network {mac name : String}
    (hid : devices.get id = some (.network mac name))
    (h : hasUsb (devices.remove id) serial = false) : devices.hasUsb serial = false := by
  rw [hasUsb_eq_false_iff] at h ⊢
  intro k e hk hu
  have hne : k ≠ id := by
    rintro rfl
    rw [hid] at hk
    cases hk
    cases hu
  exact h k e ((devices.get_remove_of_ne hne).trans hk) hu

/-- An entry that stays is not covered when others go. -/
theorem shown_retain {p : ℕ → Device → Bool} (h : devices.shown id = true)
    (hp : ((devices.retain p).get id).isSome = true) : shown (devices.retain p) id = true := by
  obtain ⟨e, he⟩ := Option.isSome_iff_exists.mp hp
  have hget := ((devices.get_retain_eq_some_iff p id e).mp he).1
  obtain ⟨e', he', hs⟩ := shown_eq_true_iff.mp h
  have hee : e = e' := Option.some.inj (hget.symm.trans he')
  subst hee
  exact shown_eq_true_iff.mpr ⟨e, he, hs.imp_right hasUsb_retain_eq_false⟩

/-- An entry is not uncovered when the USB devices with its serial number stay. -/
theorem shown_of_retain {p : ℕ → Device → Bool} (h : shown (devices.retain p) id = true)
    (hp : ∀ e k info, devices.get id = some e → devices.get k = some (.usb info) →
      (Device.usb info).serialNumber = e.serialNumber → p k (.usb info) = true) :
    devices.shown id = true := by
  obtain ⟨e, he, hs⟩ := shown_eq_true_iff.mp h
  have hget := ((devices.get_retain_eq_some_iff p id e).mp he).1
  refine shown_eq_true_iff.mpr ⟨e, hget, hs.imp_right ?_⟩
  intro hf
  rw [hasUsb_eq_false_iff] at hf ⊢
  intro k u hk hu hserial
  cases u with
  | network mac name => cases hu
  | usb info =>
    have hkept := (devices.get_retain_eq_some_iff p k _).mpr ⟨hk, hp e k info hget hk hserial⟩
    exact hf k _ hkept hu hserial

theorem hasUsb_insert {e : Device} (hid : devices.get id = none) :
    hasUsb (devices.insert id e) serial = true ↔
      devices.hasUsb serial = true ∨ e.isUsb = true ∧ e.serialNumber = serial := by
  simp only [hasUsb_eq_true_iff]
  constructor
  · rintro ⟨k, e', hk, he'⟩
    rw [KeyTable.get_insert] at hk
    split_ifs at hk with hkid
    · cases hk
      exact .inr he'
    · exact .inl ⟨k, e', hk, he'⟩
  · rintro (⟨k, e', hk, he'⟩ | he)
    · have hne : k ≠ id := by
        rintro rfl
        rw [hid] at hk
        cases hk
      exact ⟨k, e', by rw [KeyTable.get_insert_of_ne devices e hne, hk], he'⟩
    · exact ⟨id, e, KeyTable.get_insert_self devices id e, he⟩

theorem hasUsb_insert_network (mac name : String) (hid : devices.get id = none) :
    hasUsb (devices.insert id (.network mac name)) serial = devices.hasUsb serial := by
  rw [Bool.eq_iff_iff, hasUsb_insert hid]
  simp [Device.isUsb]

/-- A new entry uncovers nothing. -/
theorem shown_of_insert {e : Device} (hid : devices.get id = none) (hj : j ≠ id)
    (h : shown (devices.insert id e) j = true) : devices.shown j = true := by
  obtain ⟨f, hf, hs⟩ := shown_eq_true_iff.mp h
  rw [KeyTable.get_insert_of_ne devices e hj] at hf
  refine shown_eq_true_iff.mpr ⟨f, hf, hs.imp_right ?_⟩
  intro hn
  rw [← Bool.not_eq_true, hasUsb_insert hid] at hn
  rw [← Bool.not_eq_true]
  exact fun ht => hn (.inl ht)

theorem shown_insert_network {mac name : String} (hid : devices.get id = none)
    (h : devices.shown j = true) : shown (devices.insert id (.network mac name)) j = true := by
  obtain ⟨f, hf, hs⟩ := shown_eq_true_iff.mp h
  have hj : j ≠ id := by
    rintro rfl
    rw [hid] at hf
    cases hf
  refine shown_eq_true_iff.mpr ⟨f, ?_, hs.imp_right ?_⟩
  · rw [KeyTable.get_insert_of_ne devices _ hj, hf]
  · intro hn
    rw [hasUsb_insert_network mac name hid, hn]

theorem shown_insert_usb_self (info : DeviceInfo) :
    shown (devices.insert id (.usb info)) id = true :=
  shown_eq_true_iff.mpr ⟨.usb info, KeyTable.get_insert_self devices id _, .inl rfl⟩

theorem hasNetwork_eq_true_iff :
    devices.hasNetwork serial = true ↔ ∃ k mac, devices.get k = some (.network mac serial) := by
  simp only [hasNetwork, KeyTable.any_eq_true_iff, Device.isNetworkOf, Bool.and_eq_true,
    beq_iff_eq, Device.isNetwork, Bool.not_eq_true']
  constructor
  · rintro ⟨k, e, hk, hu, rfl⟩
    cases e with
    | usb info => cases hu
    | network mac name => exact ⟨k, mac, hk⟩
  · rintro ⟨k, mac, hk⟩
    exact ⟨k, _, hk, rfl, rfl⟩

theorem get_of_finds (h : devices.finds serial (some id) = true) :
    ∃ mac, devices.get id = some (.network mac serial) := by
  cases he : devices.get id with
  | none => simp [finds, he] at h
  | some e =>
    cases e with
    | usb info => simp [finds, he, Device.isNetworkOf, Device.isNetwork, Device.isUsb] at h
    | network mac name =>
      have hname : name = serial := by
        simpa [finds, he, Device.isNetworkOf, Device.isNetwork, Device.isUsb,
          Device.serialNumber] using h
      exact ⟨mac, by rw [hname]⟩

theorem shown_insert_usb {info : DeviceInfo} (hid : devices.get id = none)
    (hc : devices.coversNone (Device.usb info).serialNumber = true)
    (h : devices.shown j = true) : shown (devices.insert id (.usb info)) j = true := by
  obtain ⟨f, hf, hs⟩ := shown_eq_true_iff.mp h
  have hj : j ≠ id := by
    rintro rfl
    rw [hid] at hf
    cases hf
  have hf' : (devices.insert id (.usb info)).get j = some f := by
    rw [KeyTable.get_insert_of_ne devices _ hj, hf]
  cases f with
  | usb i => exact shown_eq_true_iff.mpr ⟨_, hf', .inl rfl⟩
  | network mac name =>
    have hn : devices.hasUsb name = false := by simpa [Device.isUsb, Device.serialNumber] using hs
    refine shown_eq_true_iff.mpr ⟨_, hf', .inr ?_⟩
    rw [← Bool.not_eq_true, hasUsb_insert hid]
    rintro (ht | ⟨-, hname⟩)
    · exact Bool.false_ne_true (hn.symm.trans ht)
    · -- the new device has the serial number of a network device that is shown
      have hname' : (Device.usb info).serialNumber = name := hname
      have hnet : devices.hasNetwork name = true := hasNetwork_eq_true_iff.mpr ⟨j, mac, hf⟩
      rw [hname', coversNone, hnet, hn] at hc
      cases hc

end Registry

end Rusbmux
