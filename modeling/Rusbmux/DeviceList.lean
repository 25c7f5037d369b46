import Rusbmux.ClientHandler
import Mathlib.Data.List.Perm.Basic

/-! The filter of `devices_plist` and of `send_currently_connected`, which is to
leave one kind of entry for each serial number: src/handler/device_list.rs and
src/handler/listen.rs. -/
namespace Rusbmux

/-- The content of `CONNECTED_DEVICES` in the order of an iteration. Each entry
is under the id of its device. -/
structure ConnectedDevices where
  entries : List AttachedDevice
  nodup : (entries.map AttachedDevice.id).Nodup

namespace AttachedDevice

def isUsb : AttachedDevice → Bool
  | usb _ _ _ _ _ => true
  | network _ _ _ _ _ => false

end AttachedDevice

namespace ConnectedDevices

variable (devices : ConnectedDevices)

/-- The entries that pass the filter. -/
def shown : List AttachedDevice :=
  devices.entries.filter (AttachedDevice.shownAmong devices.entries)

/-- The entries of a serial number that pass the filter. -/
def shownOf (serial : String) : List AttachedDevice :=
  devices.shown.filter fun d => d.serialNumber == serial

def usbOf (serial : String) : List AttachedDevice :=
  devices.entries.filter fun d => d.isUsb && d.serialNumber == serial

/-- For each serial number that is connected, the list has all its USB entries
if there are any, and otherwise exactly one of its network entries. -/
def Deduplicated : Prop :=
  ∀ d ∈ devices.entries,
    if devices.usbOf d.serialNumber = [] then
      ∃ e ∈ devices.entries, devices.shownOf d.serialNumber = [e]
    else devices.shownOf d.serialNumber = devices.usbOf d.serialNumber

/-- What the handlers make of the map: the list of `devices_plist`, and a packet
for each device of the snapshot, in one order. -/
structure Lists (host : HandlerHost) (outcomes : Outcomes) (tag : UInt32) : Prop where
  plist : devicesPlist outcomes =
    .dictionary [("DeviceList", .array (devices.shown.map AttachedDevice.createDeviceAttached))]
  snapshot : ∀ s, sendCurrentlyConnected host outcomes tag s =
    (.ok (), { s with
      sent := s.sent ++
        devices.shown.map fun d => plistMessage host.xml d.createDeviceAttached tag })

/-- A serial number without a USB entry has one network entry only. -/
def OneNetwork : Prop :=
  ∀ d ∈ devices.entries, ∀ e ∈ devices.entries, d.serialNumber = e.serialNumber →
    devices.usbOf d.serialNumber = [] → d = e

variable {devices} {d e : AttachedDevice}

theorem eq_of_id (hd : d ∈ devices.entries) (he : e ∈ devices.entries) (h : d.id = e.id) : d = e :=
  List.inj_on_of_nodup_map devices.nodup hd he h

theorem mem_usbOf {serial : String} :
    d ∈ devices.usbOf serial ↔ d ∈ devices.entries ∧ d.isUsb = true ∧ d.serialNumber = serial := by
  simp only [usbOf, List.mem_filter, Bool.and_eq_true, beq_iff_eq]

/-- A network entry passes when it is the only entry with its serial number. -/
theorem shownAmong_iff (hd : d ∈ devices.entries) :
    AttachedDevice.shownAmong devices.entries d = true ↔
      d.isUsb = true ∨ ∀ e ∈ devices.entries, e.serialNumber = d.serialNumber → e = d := by
  cases d with
  | usb => simp [AttachedDevice.shownAmong, AttachedDevice.isUsb]
  | network id serviceName scopeId networkAddress serialNumber =>
    simp only [AttachedDevice.shownAmong, AttachedDevice.isUsb, Bool.false_eq_true, false_or,
      Bool.not_eq_true', List.any_eq_false, Bool.and_eq_true, beq_iff_eq, bne_iff_ne, not_and,
      not_not]
    constructor
    · intro h e he hserial
      exact eq_of_id he hd (h e he hserial)
    · intro h e he hserial
      rw [h e he hserial]
      rfl

theorem mem_shownOf {serial : String} :
    d ∈ devices.shownOf serial ↔ d ∈ devices.entries ∧ d.serialNumber = serial ∧
      (d.isUsb = true ∨ ∀ e ∈ devices.entries, e.serialNumber = d.serialNumber → e = d) := by
  simp only [shownOf, shown, List.mem_filter, beq_iff_eq]
  constructor
  · intro h
    exact ⟨h.1.1, h.2, (shownAmong_iff h.1.1).mp h.1.2⟩
  · intro h
    exact ⟨⟨h.1, (shownAmong_iff h.1).mpr h.2.2⟩, h.2.1⟩

theorem nodup_entries : devices.entries.Nodup := List.Nodup.of_map _ devices.nodup

/-- A USB entry hides every network entry with its serial number. -/
theorem shownOf_eq_usbOf {serial : String} (h : devices.usbOf serial ≠ []) :
    devices.shownOf serial = devices.usbOf serial := by
  obtain ⟨u, hu⟩ := List.exists_mem_of_ne_nil _ h
  have husb := mem_usbOf.mp hu
  unfold shownOf shown usbOf
  rw [List.filter_filter]
  apply List.filter_congr
  intro d hd
  rw [Bool.eq_iff_iff]
  simp only [Bool.and_eq_true, beq_iff_eq, shownAmong_iff hd]
  constructor
  · intro hshown
    refine ⟨?_, hshown.1⟩
    cases hshown.2 with
    | inl hd => exact hd
    | inr honly =>
      have hud := honly u husb.1 (husb.2.2.trans hshown.1.symm)
      rw [← hud]
      exact husb.2.1
  · intro hdu
    exact ⟨hdu.2, .inl hdu.1⟩

/-- A network entry that has its serial number alone is the one that is shown. -/
theorem shownOf_eq_singleton (hone : devices.OneNetwork) (hd : d ∈ devices.entries)
    (h : devices.usbOf d.serialNumber = []) : devices.shownOf d.serialNumber = [d] := by
  have hnodup : (devices.shownOf d.serialNumber).Nodup :=
    (nodup_entries.filter _).filter _
  have hmem (e : AttachedDevice) : e ∈ devices.shownOf d.serialNumber ↔ e ∈ [d] := by
    rw [mem_shownOf, List.mem_singleton]
    constructor
    · intro he
      exact (hone d hd e he.1 he.2.1.symm h).symm
    · intro hed
      subst hed
      refine ⟨hd, rfl, .inr ?_⟩
      intro f hf hserial
      exact (hone e hd f hf hserial.symm h).symm
  have hperm := (List.perm_ext_iff_of_nodup hnodup (List.nodup_singleton d)).mpr hmem
  exact List.perm_singleton.mp hperm

/-- Two network entries with one serial number hide each other. -/
theorem eq_of_shownOf (hd : d ∈ devices.entries) (h : devices.usbOf d.serialNumber = [])
    (hshown : devices.shownOf d.serialNumber = [e]) : d = e := by
  have he : e ∈ devices.shownOf d.serialNumber := by
    rw [hshown]
    exact List.mem_singleton_self e
  obtain ⟨hentry, hserial, hkind⟩ := mem_shownOf.mp he
  cases hkind with
  | inl hu =>
    have hmem : e ∈ devices.usbOf d.serialNumber := mem_usbOf.mpr ⟨hentry, hu, hserial⟩
    rw [h] at hmem
    cases hmem
  | inr honly => exact honly d hd hserial.symm

theorem deduplicated_iff_oneNetwork : devices.Deduplicated ↔ devices.OneNetwork := by
  constructor
  · intro h d hd e he hserial hnone
    have hshown := h d hd
    rw [if_pos hnone] at hshown
    obtain ⟨f, -, hf⟩ := hshown
    have hdf := eq_of_shownOf hd hnone hf
    rw [hserial] at hnone hf
    have hef := eq_of_shownOf he hnone hf
    exact hdf.trans hef.symm
  · intro h d hd
    split_ifs with hnone
    · exact ⟨d, hd, shownOf_eq_singleton h hd hnone⟩
    · exact shownOf_eq_usbOf hnone

/-- Packet after packet is written while the client takes them. -/
theorem forM_sendAttached (host : HandlerHost) {outcomes : Outcomes}
    (hclient : outcomes.faults.client = none) (tag : UInt32) (ds : List AttachedDevice)
    (s : RecordState) :
    ds.forM (sendAttached host outcomes tag) s =
      (.ok (), { s with
        sent := s.sent ++ ds.map fun d => plistMessage host.xml d.createDeviceAttached tag }) := by
  induction ds generalizing s with
  | nil =>
    rw [List.map_nil, List.append_nil]
    rfl
  | cons d ds ih =>
    have hsend : sendAttached host outcomes tag d s =
        (.ok (), { s with
          sent := s.sent ++ [plistMessage host.xml d.createDeviceAttached tag] }) := by
      unfold sendAttached sendPlist writeAll
      rw [hclient]
    refine Handler.bind_eq_ok_iff.mpr ⟨(), _, hsend, ?_⟩
    rw [ih, List.map_cons, List.append_assoc]
    rfl

end ConnectedDevices

end Rusbmux
