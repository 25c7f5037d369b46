import Rusbmux.Watchers

/-! The calls of `serial_number` in the searches of the watchers and of a snapshot,
and when they come to what the devices' own serial numbers give. -/
namespace Rusbmux

namespace Registry

/-- At each entry of the kind, what is read compares as the serial numbers do:
`held` is what the search reads of the device in hand, whose number is `serial`. -/
def ReadsRight (devices : Registry) (kind : Device → Bool) (reads : SerialReads)
    (held : ℕ → String) (serial : String) : Prop :=
  ∀ k e, devices.get k = some e → kind e = true →
    (e.serialNumberRead (reads.entry k) = held k ↔ e.serialNumber = serial)

variable {devices : Registry} {reads : SerialReads} {device : Device} {serial : String}

/-- The entry of a network device is read as it is. -/
theorem ReadsRight.isNetworkOf {k : ℕ} {e : Device}
    (h : devices.ReadsRight Device.isNetwork reads
      (fun k => device.serialNumberRead (reads.held k)) device.serialNumber)
    (he : devices.get k = some e) :
    e.isNetworkOf (device.serialNumberRead (reads.held k)) =
      e.isNetworkOf device.serialNumber := by
  cases e with
  | usb info => rfl
  | network mac name =>
    have hname := h k _ he rfl
    rw [Device.serialNumberRead_network] at hname
    rw [Bool.eq_iff_iff]
    simpa [Device.isNetworkOf, Device.isNetwork, Device.isUsb, Device.serialNumber] using hname

theorem findsRead_eq (h : devices.ReadsRight Device.isNetwork reads
      (fun k => device.serialNumberRead (reads.held k)) device.serialNumber)
    (twin : Option ℕ) :
    devices.findsRead reads device twin = devices.finds device.serialNumber twin := by
  cases twin with
  | none => exact congrArg not (KeyTable.any_congr fun k e he => h.isNetworkOf he)
  | some id =>
    simp only [findsRead, finds]
    cases he : devices.get id with
    | none => rfl
    | some e => exact h.isNetworkOf he

theorem hasUsbRead_eq (h : devices.ReadsRight Device.isUsb reads (fun _ => serial) serial) :
    devices.hasUsbRead reads serial = devices.hasUsb serial := by
  apply KeyTable.any_congr
  intro k e he
  cases hu : e.isUsb with
  | false => simp [Device.isUsbOf, hu]
  | true =>
    rw [Bool.eq_iff_iff]
    simpa [Device.isUsbOf, hu] using h k e he hu

theorem retainOthers_eq (h : devices.ReadsRight (fun _ => true) reads
      (fun k => device.serialNumberRead (reads.held k)) device.serialNumber) :
    devices.retainOthers reads device =
      devices.retain fun _ e => e.serialNumber != device.serialNumber := by
  apply KeyTable.retain_congr
  intro k e he
  rw [Bool.eq_iff_iff]
  simpa using not_congr (h k e he rfl)

/-- The same for the filter of a snapshot, when it comes to the entry. -/
def ListsRight (devices : Registry) (reads : SerialReads) (id : ℕ) : Prop :=
  ∀ mac serial, devices.get id = some (.network mac serial) →
    devices.ReadsRight Device.isUsb reads (fun _ => serial) serial

theorem listedRead_eq {id : ℕ} (h : devices.ListsRight reads id) :
    devices.listedRead reads id = devices.listed id := by
  unfold listedRead listed
  cases he : devices.get id with
  | none => rfl
  | some d =>
    cases d with
    | usb info => rfl
    | network mac serial =>
      simp only [Option.any_some]
      refine congrArg _ (congrArg _ (KeyTable.any_congr fun k e hk => ?_))
      cases e with
      | network m name =>
        rw [Device.serialNumberRead_network]
        rfl
      | usb info =>
        have hiff := h mac serial he k _ hk rfl
        have hserial : (Device.network mac serial).serialNumber = serial := rfl
        rw [Bool.eq_iff_iff, hserial]
        simp [hiff]

end Registry

namespace Daemon

/-- The search of the step, if it is one, takes no device for one that it is not,
nor misses one, by what it reads as the serial numbers of USB devices. -/
def ReadsRight (reads : SerialReads) (d : Daemon) : Action → Prop
  | .usbConnected _ info _ => d.devices.ReadsRight Device.isNetwork reads
    (fun k => (Device.usb info).serialNumberRead (reads.held k)) (Device.usb info).serialNumber
  | .usbRetain => ∀ id info, d.usb = .arrived id info →
    d.devices.ReadsRight (fun _ => true) reads
      (fun k => (Device.usb info).serialNumberRead (reads.held k)) (Device.usb info).serialNumber
  | .announceTwin _ => ∀ id info, d.usb = .removed id info →
    d.devices.ReadsRight Device.isNetwork reads
      (fun k => (Device.usb info).serialNumberRead (reads.held k)) (Device.usb info).serialNumber
  | .networkCheck id => ∀ serial, d.adding.get id = some (.inserted serial) →
    d.devices.ReadsRight Device.isUsb reads (fun _ => serial) serial
  | .removalCheck id => ∀ serial, d.removing.get id = some (.removed serial) →
    d.devices.ReadsRight Device.isUsb reads (fun _ => serial) serial
  | _ => True

variable {reads : SerialReads} {d : Daemon} {a : Action}

theorem stepUsb_eq (h : d.ReadsRight reads a) :
    d.stepUsb reads d.usb a = d.stepUsb .own d.usb a := by
  cases a with
  | usbConnected id info twin =>
    cases hu : d.usb with
    | idle => simp only [stepUsb, Registry.findsRead_eq h twin, Registry.findsRead_own]
    | _ => rfl
  | usbRetain =>
    cases hu : d.usb with
    | arrived id info =>
      simp only [stepUsb, Registry.retainOthers_eq (h id info hu), Registry.retainOthers_own]
    | _ => rfl
  | announceTwin twin =>
    cases hu : d.usb with
    | removed id info =>
      simp only [stepUsb, Registry.findsRead_eq (h id info hu) twin, Registry.findsRead_own]
    | _ => rfl
  | _ => cases d.usb <;> rfl

theorem stepNetwork_eq (h : d.ReadsRight reads a) :
    d.stepNetwork reads a = d.stepNetwork .own a := by
  cases a with
  | networkCheck id =>
    simp only [stepNetwork]
    split
    next serial ht => rw [Registry.hasUsbRead_eq (h serial ht), Registry.hasUsbRead_own]
    next => rfl
  | removalCheck id =>
    simp only [stepNetwork]
    split
    next serial ht => rw [Registry.hasUsbRead_eq (h serial ht), Registry.hasUsbRead_own]
    next => rfl
  | _ => rfl

theorem readsRight_own (d : Daemon) (a : Action) : d.ReadsRight .own a := by
  cases a <;> first | exact trivial | exact fun _ _ _ _ => Iff.rfl |
    exact fun _ _ _ _ _ _ _ => Iff.rfl | exact fun _ _ _ _ _ _ => Iff.rfl

/-- A step whose search reads right is one over the serial numbers themselves. -/
theorem stepRead_eq (h : d.ReadsRight reads a) : d.stepRead reads a = d.step a := by
  rw [step, stepRead, stepRead, stepUsb_eq h, stepNetwork_eq h]

end Daemon

end Rusbmux
