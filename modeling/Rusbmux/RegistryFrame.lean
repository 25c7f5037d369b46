import Rusbmux.Hotplug

/-! What an arrival and a notice do to the entries of other devices: the two
`retain` calls of src/watcher/usb.rs. -/
namespace Rusbmux

/-- Which physical device an entry stands for. A serial number that could be
read belongs to one device only. -/
structure Identity (π : Type) where
  physical : ℕ → Device → π
  serial : ∀ i e j f, e.serialNumber = f.serialNumber → e.serialNumber ≠ "" →
    physical i e = physical j f

namespace HotplugDaemon

/-- The device that is found again after a notice, if it can be opened. -/
def foundAgain (r : Retry) (opaqueId : UInt64) : Option DeviceInfo :=
  match r.opened with
  | .ok _ => r.listed.find? fun info => info.opaqueId = opaqueId
  | .error _ => none

section

variable (find : Registry → (Device → Bool) → Option ℕ)
  (shutdown : ℕ → Except RusbmuxError Unit)

/-- The entries after a `Connected` event. -/
def connectedDevices (s : HotplugDaemon) (info : DeviceInfo) (id : ℕ) : Registry :=
  (s.handle find shutdown (.ok (.connected (.usb info) id))).devices

/-- The entries after a notice. -/
def noticedDevices (s : HotplugDaemon) (id : ℕ) (opaqueId : UInt64) (r : Retry) : Registry :=
  (s.reopen id opaqueId (foundAgain r opaqueId)).devices

/-- An arrival removes no entry of another physical device, and a notice no
network entry and no USB entry with another opaque id. -/
structure TouchesOnly {π : Type} (identity : Identity π) (s : HotplugDaemon)
    (arrived : DeviceInfo) (arrivedId : ℕ) (noticed : ℕ) (opaqueId : UInt64) (r : Retry) :
    Prop where
  connected : ∀ j e, s.devices.get j = some e →
    identity.physical j e ≠ identity.physical arrivedId (.usb arrived) →
    (s.connectedDevices find shutdown arrived arrivedId).get j = some e
  notice : ∀ j e, s.devices.get j = some e → e.isNetwork = true ∨ e.opaqueId ≠ opaqueId →
    (s.noticedDevices noticed opaqueId r).get j = some e

end

/-- The identifiers tell the devices apart: an entry that has the id of the
arriving device, or like it no serial number, is of the same device; the opaque
id of a notice is not 0 while there are network entries, and the entry under the
id of a device that comes back is the one of the notice. -/
structure TellsApart {π : Type} (identity : Identity π) (s : HotplugDaemon)
    (arrived : DeviceInfo) (arrivedId : ℕ) (noticed : ℕ) (opaqueId : UInt64) (r : Retry) :
    Prop where
  id : ∀ e, s.devices.get arrivedId = some e →
    identity.physical arrivedId e = identity.physical arrivedId (.usb arrived)
  serial : (Device.usb arrived).serialNumber = "" → ∀ j e, s.devices.get j = some e →
    e.serialNumber = "" → identity.physical j e = identity.physical arrivedId (.usb arrived)
  network : opaqueId = 0 → ∀ j e, s.devices.get j = some e → e.isUsb = true
  reopened : (foundAgain r opaqueId).isSome = true → ∀ e, s.devices.get noticed = some e →
    e.isUsb = true ∧ e.opaqueId = opaqueId

variable {find : Registry → (Device → Bool) → Option ℕ}
  {shutdown : ℕ → Except RusbmuxError Unit} {s : HotplugDaemon}

theorem sendFound_devices (s : HotplugDaemon) (event : ℕ → DeviceEvent) (found : Option ℕ) :
    (s.sendFound event found).devices = s.devices := by
  cases found <;> rfl

theorem connectedDevices_eq (info : DeviceInfo) (id : ℕ) :
    s.connectedDevices find shutdown info id =
      (s.devices.retain fun _ d => d.serialNumber != (Device.usb info).serialNumber).insert id
        (.usb info) := by
  simp only [connectedDevices, handle, sendFound_devices]

theorem noticedDevices_eq (id : ℕ) (opaqueId : UInt64) (r : Retry) :
    s.noticedDevices id opaqueId r = match foundAgain r opaqueId with
      | some info => (s.devices.retain fun _ d => d.opaqueId != opaqueId).insert id (.usb info)
      | none => s.devices.retain fun _ d => d.opaqueId != opaqueId := by
  unfold noticedDevices reopen
  cases foundAgain r opaqueId <;> rfl

theorem opaqueId_of_foundAgain {r : Retry} {opaqueId : UInt64} {info : DeviceInfo}
    (h : foundAgain r opaqueId = some info) : info.opaqueId = opaqueId := by
  unfold foundAgain at h
  split at h
  · simpa using List.find?_some h
  · cases h

/-- An entry stays through an arrival unless it has the serial number or the id
of the device, whose entry takes its place. -/
theorem get_connectedDevices_iff (info : DeviceInfo) (id j : ℕ) (e : Device)
    (hj : s.devices.get j = some e) :
    (s.connectedDevices find shutdown info id).get j = some e ↔
      if j = id then e = .usb info else e.serialNumber ≠ (Device.usb info).serialNumber := by
  rw [connectedDevices_eq, KeyTable.get_insert]
  split_ifs
  · rw [Option.some.injEq, eq_comm]
  · rw [KeyTable.get_retain_eq_some_iff, bne_iff_ne]
    exact and_iff_right hj

theorem get_noticedDevices_iff (id : ℕ) (opaqueId : UInt64) (r : Retry) (j : ℕ) (e : Device)
    (hj : s.devices.get j = some e) :
    (s.noticedDevices id opaqueId r).get j = some e ↔ match foundAgain r opaqueId with
      | some info => if j = id then e = .usb info else e.opaqueId ≠ opaqueId
      | none => e.opaqueId ≠ opaqueId := by
  have hkept : (s.devices.retain fun _ d => d.opaqueId != opaqueId).get j = some e ↔
      e.opaqueId ≠ opaqueId := by
    rw [KeyTable.get_retain_eq_some_iff, bne_iff_ne]
    exact and_iff_right hj
  rw [noticedDevices_eq]
  cases foundAgain r opaqueId with
  | none => exact hkept
  | some info =>
    simp only [KeyTable.get_insert]
    split_ifs
    · rw [Option.some.injEq, eq_comm]
    · exact hkept

section

variable {π : Type} {identity : Identity π} {arrived : DeviceInfo} {arrivedId noticed : ℕ}
  {opaqueId : UInt64} {r : Retry}

/-- An arrival keeps the entries of other devices if and only if the id is its
own and no other device lacks a serial number as well. -/
theorem keepsConnected_iff :
    (∀ j e, s.devices.get j = some e →
      identity.physical j e ≠ identity.physical arrivedId (.usb arrived) →
      (s.connectedDevices find shutdown arrived arrivedId).get j = some e) ↔
    (∀ e, s.devices.get arrivedId = some e →
      identity.physical arrivedId e = identity.physical arrivedId (.usb arrived)) ∧
    ((Device.usb arrived).serialNumber = "" → ∀ j e, s.devices.get j = some e →
      e.serialNumber = "" →
      identity.physical j e = identity.physical arrivedId (.usb arrived)) := by
  constructor
  · intro h
    constructor
    · intro e he
      by_contra hne
      have hkept := (get_connectedDevices_iff arrived arrivedId arrivedId e he).mp (h _ e he hne)
      rw [if_pos rfl] at hkept
      exact hne (by rw [hkept])
    · intro hserial j e he hempty
      by_contra hne
      have hkept := (get_connectedDevices_iff arrived arrivedId j e he).mp (h j e he hne)
      split_ifs at hkept with hj
      · exact hne (by rw [hkept, hj])
      · exact hkept (hempty.trans hserial.symm)
  · intro h j e he hne
    apply (get_connectedDevices_iff arrived arrivedId j e he).mpr
    split_ifs with hj
    · subst hj
      exact absurd (h.1 e he) hne
    · intro hserial
      by_cases hempty : e.serialNumber = ""
      · exact hne (h.2 (hserial.symm.trans hempty) j e he hempty)
      · exact hne (identity.serial j e arrivedId _ hserial hempty)

theorem isNetwork_of_not_isUsb {e : Device} (h : e.isUsb = false) : e.isNetwork = true := by
  rw [Device.isNetwork, h]
  rfl

/-- A notice keeps the entries of other devices if and only if its opaque id is
not the one that stands for a network device, and the id is its own. -/
theorem keepsNoticed_iff :
    (∀ j e, s.devices.get j = some e → e.isNetwork = true ∨ e.opaqueId ≠ opaqueId →
      (s.noticedDevices noticed opaqueId r).get j = some e) ↔
    (opaqueId = 0 → ∀ j e, s.devices.get j = some e → e.isUsb = true) ∧
    ((foundAgain r opaqueId).isSome = true → ∀ e, s.devices.get noticed = some e →
      e.isUsb = true ∧ e.opaqueId = opaqueId) := by
  constructor
  · intro h
    constructor
    · intro hzero j e he
      by_contra hu
      have hnet : e.isNetwork = true := isNetwork_of_not_isUsb (Bool.eq_false_iff.mpr hu)
      have hkept := (get_noticedDevices_iff noticed opaqueId r j e he).mp (h j e he (.inl hnet))
      cases e with
      | usb info => exact hu rfl
      | network mac name =>
        -- the entry that is taken for one with the opaque id 0
        have hopaque : (Device.network mac name).opaqueId = opaqueId := hzero.symm
        split at hkept
        · split_ifs at hkept
          exact hkept hopaque
        · exact hkept hopaque
    · intro hfound e he
      -- the insert would replace the entry of another device
      obtain ⟨info, hinfo⟩ := Option.isSome_iff_exists.mp hfound
      by_contra hne
      have hother : e.isNetwork = true ∨ e.opaqueId ≠ opaqueId := by
        rw [not_and_or, Bool.not_eq_true] at hne
        exact hne.imp_left isNetwork_of_not_isUsb
      have hkept := (get_noticedDevices_iff noticed opaqueId r noticed e he).mp
        (h noticed e he hother)
      rw [hinfo] at hkept
      simp only [if_true] at hkept
      subst hkept
      exact hne ⟨rfl, opaqueId_of_foundAgain hinfo⟩
  · intro h j e he hother
    -- a network device is looked at as one with the opaque id 0
    have hopaque : e.opaqueId ≠ opaqueId := by
      cases e with
      | usb info =>
        cases hother with
        | inl hnet => cases hnet
        | inr hne => exact hne
      | network mac name =>
        intro hzero
        have hu := h.1 hzero.symm j _ he
        cases hu
    apply (get_noticedDevices_iff noticed opaqueId r j e he).mpr
    split
    · rename_i info hinfo
      split_ifs with hj
      · subst hj
        exact absurd (h.2 (by rw [hinfo]; rfl) e he).2 hopaque
      · exact hopaque
    · exact hopaque

end

/-- Entries without a serial number stand for devices of their own. -/
def apart : Identity (ℕ × String) where
  physical i e := if e.serialNumber = "" then (i, "") else (0, e.serialNumber)
  serial i e j f hserial hne := by
    rw [if_neg hne, if_neg (hserial ▸ hne), hserial]

end HotplugDaemon

end Rusbmux
