import Rusbmux.DeviceObjects
import Rusbmux.ListenerView

/-! The devices that are visible by the events broadcast so far, and the order
of the events when a serial number passes from one device to another. -/
namespace Rusbmux

/-- The daemon with the set that its events describe. `known` has the device
that each id had last. -/
structure Broadcasts where
  daemon : Daemon
  known : KeyTable ℕ Device
  visible : List ℕ

namespace Daemon

variable (d : Daemon)

/-- The device of the attach event that a step sends. -/
def attaches : Action → Option ℕ
  | .announceTwin twin => match d.usb with
    | .removed _ _ => twin
    | _ => none
  | .sendAttached => match d.usb with
    | .reopened id => some id
    | _ => none
  | .networkAttached id => match d.adding.get id with
    | some .announcing => some id
    | _ => none
  | _ => none

/-- A step takes no visible device out of the map unless its Detached follows,
and lets no other device with its serial number beside a USB device. -/
def Follows (visible : List ℕ) : Action → Prop
  | .usbRetain => ∀ id info, d.usb = .arrived id info → ∀ i ∈ visible, ∀ e,
    d.devices.get i = some e → e.serialNumber ≠ (Device.usb info).serialNumber
  | .usbInsert => ∀ id info, d.usb = .retained id info → ∀ i ∈ visible,
    d.removing.get i ≠ some (.removed (Device.usb info).serialNumber)
  | .reopen info => d.devices.hasUsb (Device.usb info).serialNumber = false
  | .networkAttached id => (d.devices.get id).isSome = true
  | _ => True

end Daemon

namespace Broadcasts

inductive Action where
  | daemon (reads : SerialReads) (a : Daemon.Action)
  /-- The fold starts anew from a snapshot without duplicates. -/
  | snapshot

def fold (visible : List ℕ) : Option DeviceEvent → List ℕ
  | none => visible
  | some (.attached id) => id :: visible
  | some (.detached id) => visible.filter (· ≠ id)

def learn (known : KeyTable ℕ Device) : Option (ℕ × Device) → KeyTable ℕ Device
  | none => known
  | some (id, device) => known.insert id device

section

variable (s : Broadcasts)

def step : Action → Option Broadcasts
  | .daemon reads a => (s.daemon.stepRead reads a).map fun r =>
    ⟨r.1, learn s.known (s.daemon.inserts a), fold s.visible r.2⟩
  | .snapshot => some { s with
      visible := s.daemon.devices.keys.filter s.daemon.devices.listed }

def serialOf (id : ℕ) : Option String := (s.known.get id).map Device.serialNumber

/-- No two visible devices have a serial number in common. -/
def OneVisible : Prop :=
  ∀ i ∈ s.visible, ∀ j ∈ s.visible, s.serialOf i = s.serialOf j → i = j

/-- The tasks' events stay true of the registry, the searches read the serial numbers
right, and nothing visible is left behind. -/
def Tidy : Action → Prop
  | .daemon reads a =>
    s.daemon.ReadsRight reads a ∧ s.daemon.Clean a ∧ s.daemon.Follows s.visible a
  | .snapshot => True

/-- The removal of a visible network device with the serial number is under way. -/
def Removing (serial : String) : Prop :=
  ∃ i ∈ s.visible, (s.daemon.removing.get i).isSome = true ∧ s.serialOf i = some serial

/-- The USB task has taken out a visible device with the serial number. -/
def Leaving (serial : String) : Prop :=
  ∃ i ∈ s.visible, s.daemon.usb.detaching = some i ∧ s.serialOf i = some serial

/-- The order of the tasks: `remove_device` has no twin to tell of when the USB
device is visible, and no device is told to be attached before a task that takes
out a visible one with its serial number is done. -/
def InTurn : Action → Prop
  | .daemon _ (.announceTwin twin) => ∀ id info, s.daemon.usb = .removed id info →
    twin ≠ none → id ∉ s.visible ∧ ¬s.Removing (Device.usb info).serialNumber
  | .daemon _ .sendAttached => ∀ id e, s.daemon.usb = .reopened id →
    s.daemon.devices.get id = some e → ¬s.Removing e.serialNumber
  | .daemon _ (.networkAttached id) => ∀ e, s.daemon.devices.get id = some e →
    ¬s.Removing e.serialNumber ∧ ¬s.Leaving e.serialNumber
  | _ => True

/-- No Attached is sent while a visible device with the serial number is out of
the map and its own Detached is still to come. -/
def HandsOver : Action → Prop
  | .daemon _ a => ∀ j, s.daemon.attaches a = some j → ∀ i ∈ s.visible, i ≠ j →
    s.daemon.WillDetach i → s.serialOf i ≠ s.serialOf j
  | .snapshot => True

end

def start : Broadcasts := ⟨.start, .empty, []⟩

end Broadcasts

namespace Daemon

variable {d d' : Daemon} {a : Action} {e : Option DeviceEvent}

theorem Sound.vacant (h : d.Sound) : d.Vacant where
  known id e he := h.known id (by rw [he]; rfl)
  arrival := h.arrival
  gone := h.gone
  connecting := h.connecting
  reader id o ho := ⟨(h.reader id o ho).1, fun e he => ((h.reader id o ho).2 e he).2⟩

theorem attaches_iff (hm : Move .own d a d' e) (j : ℕ) :
    d.attaches a = some j ↔ e = some (.attached j) := by
  cases hm with
  | announceTwin id info twin hu ht => cases twin <;> simp [attaches, hu]
  | reopened id hu => simp [attaches, hu]
  | left id hu => simp [attaches]
  | networkAttached id ht => simp [attaches, ht]
  | usbConnected id info twin hu hid ht => cases twin <;> simp [attaches]
  | takeNetwork _ id mac serial ha he => rcases ha with rfl | rfl <;> simp [attaches]
  | _ => simp [attaches]

/-- An event changes no entry. -/
theorem inserts_of_event (hm : Move .own d a d' e) (he : e ≠ none) : d.inserts a = none := by
  cases hm with
  | usbInsert => exact absurd rfl he
  | reopen => exact absurd rfl he
  | networkInsert => exact absurd rfl he
  | takeNetwork => exact absurd rfl he
  | _ => rfl

/-- A device that is shown, or whose Detached is still to come. -/
def Due (d : Daemon) (id : ℕ) : Prop := d.devices.shown id = true ∨ d.WillDetach id

/-- A network task takes its step while a USB device arrives. -/
theorem Due.of_silent {id : ℕ} (hid : d.Due id) (harr : d.usb.detaching = none)
    (hs : Silent { d with usb := .idle } { d' with usb := .idle }) : d'.Due id := by
  have hidle : Due { d with usb := .idle } id := by
    refine hid.imp_right fun hw => hw.imp_left fun hd => ?_
    rw [harr] at hd
    cases hd
  rcases hs.keep id hidle with hshown | (hd | hw) | ⟨harrival, -⟩
  · exact .inl hshown
  · cases hd
  · exact .inr (.inr hw)
  · exact absurd rfl harrival

theorem Due.usbRetain {visible : List ℕ} {id i : ℕ} {info : DeviceInfo}
    (hu : d.usb = .arrived id info) (hf : d.Follows visible .usbRetain) (hi : i ∈ visible)
    (hdue : d.Due i) : Due { d with
      devices := d.devices.retain fun _ e => e.serialNumber != (Device.usb info).serialNumber
      usb := .retained id info } i := by
  rcases hdue with hshown | hw
  · left
    obtain ⟨e, he⟩ := Option.isSome_iff_exists.mp (Registry.isSome_of_shown hshown)
    have hkept := (d.devices.get_retain_eq_some_iff
      (fun _ e => e.serialNumber != (Device.usb info).serialNumber) i e).mpr
        ⟨he, bne_iff_ne.mpr (hf id info hu i hi e he)⟩
    exact Registry.shown_retain hshown (by rw [hkept]; rfl)
  · right
    refine hw.mono (fun hd => ?_) rfl fun _ _ => Registry.hasUsb_retain_eq_false
    rw [hu] at hd
    cases hd

theorem Due.usbInsert {visible : List ℕ} {id i : ℕ} {info : DeviceInfo} (h : d.Sound)
    (hu : d.usb = .retained id info) (hc : d.Clean .usbInsert)
    (hf : d.Follows visible .usbInsert) (hi : i ∈ visible) (hdue : d.Due i) : Due { d with
      devices := d.devices.insert id (.usb info)
      ids := id :: d.ids
      readers := d.readers.insert id info.opaqueId
      usb := .idle } i := by
  have hid := h.get_eq_none (h.arrival id (by rw [hu]; rfl)).1
  rcases hdue with hshown | hw
  · exact .inl (Registry.shown_insert_usb hid (hc id info hu) hshown)
  · right
    refine hw.mono (fun hd => ?_) rfl fun serial hr hn => ?_
    · rw [hu] at hd
      cases hd
    · -- a removal that would find the new device is not of a visible one
      rw [← Bool.not_eq_true, Registry.hasUsb_insert hid, hn]
      rintro (ht | ⟨-, hserial⟩)
      · cases ht
      · exact hf id info hu i hi (by rw [hr, hserial])

/-- While a USB device arrives, its task or a network task takes a step. -/
theorem Due.arrival {visible : List ℕ} {i : ℕ} (h : d.Sound) (hm : Move .own d a d' e)
    (he : e = none) (hc : d.Clean a) (hf : d.Follows visible a) (harr : d.usb.arrival ≠ none)
    (hi : i ∈ visible) (hdue : d.Due i) : d'.Due i := by
  have hdetaching : d.usb.detaching = none := by
    cases husb : d.usb <;> simp [husb, UsbTask.arrival] at harr <;> rfl
  have h0 : Sound { d with usb := .idle } :=
    h.setUsb .idle (fun _ h => by cases h) (fun _ h => by cases h) fun _ h => by cases h
  cases hm with
  | deviceNotFound => exact hdue
  | alreadyAdded => exact hdue
  | serviceResolved => exact hdue
  | networkFails => exact hdue
  | addCovered => exact hdue
  | addShown => exact hdue
  | networkInsert id mac serial ht => exact hdue.of_silent hdetaching (h0.silent_networkInsert ht)
  | takeNetwork _ id mac serial ha hget =>
    exact hdue.of_silent hdetaching (h0.silent_takeNetwork hget)
  | removalCovered id serial ht hs =>
    have hclean : Clean { d with usb := .idle } (.removalCheck id) := trivial
    exact hdue.of_silent hdetaching (h0.tells hclean (.removalCovered id serial ht hs))
  | removalShown id serial ht hs =>
    have hclean : Clean { d with usb := .idle } (.removalCheck id) := trivial
    exact hdue.of_silent hdetaching (h0.tells hclean (.removalShown id serial ht hs))
  | networkAttached => cases he
  | removalDetached => cases he
  | left => cases he
  | lost => cases he
  | reopened => cases he
  | usbConnected id info twin hidle => exact absurd (by rw [hidle]; rfl) harr
  | usbDisconnected id info hidle => exact absurd (by rw [hidle]; rfl) harr
  | notice id o hidle => exact absurd (by rw [hidle]; rfl) harr
  | shutdownFails id info hr => exact absurd (by rw [hr]; rfl) harr
  | announceTwin id info twin hr => exact absurd (by rw [hr]; rfl) harr
  | reopenFails id o hr => exact absurd (by rw [hr]; rfl) harr
  | reopen id info hr => exact absurd (by rw [hr]; rfl) harr
  | usbRetain id info hr => exact hdue.usbRetain hr hf hi
  | usbInsert id info hr => exact hdue.usbInsert h hr hc hf hi

/-- A visible device stays shown, or its Detached is still to come. -/
theorem Due.step {visible : List ℕ} {i : ℕ} (h : d.Sound) (hc : d.Clean a)
    (hf : d.Follows visible a) (hm : Move .own d a d' none) (hi : i ∈ visible) (hdue : d.Due i) :
    d'.Due i := by
  have hsilent : d.Silent d' := h.tells hc hm
  by_cases harr : d.usb.arrival = none
  · rcases hsilent.keep i hdue with hshown | hw | ⟨hne, -⟩
    · exact .inl hshown
    · exact .inr hw
    · exact absurd harr hne
  · exact hdue.arrival h hm rfl hc hf harr hi

/-- What an event leaves of the devices that are due. -/
theorem Due.event {i : ℕ} {ev : DeviceEvent} (h : d.Sound) (hc : d.Clean a)
    (hm : Move .own d a d' (some ev)) (hdue : d.Due i) (hi : ev ≠ .detached i) : d'.Due i := by
  have htells : d.Tells d' (some ev) := h.tells hc hm
  cases ev with
  | attached j =>
    have hatt : d.Attaches j d' := htells
    exact hdue.imp (fun hs => by rwa [hatt.devices]) (hatt.owed i)
  | detached j =>
    have hdet : d.Detaches j d' := htells
    have hne : i ≠ j := fun hij => hi (by rw [hij])
    exact hdue.imp (fun hs => by rwa [hdet.devices]) (hdet.owed i hne)

/-- A device that is told to be attached is shown, when it is there. -/
theorem shown_of_attaches {j : ℕ} (h : d.Sound) (hc : d.Clean a)
    (hm : Move .own d a d' (some (.attached j))) (hj : (d.devices.get j).isSome = true) :
    d.devices.shown j = true := by
  have hatt : d.Attaches j d' := h.tells hc hm
  exact hatt.shown hj

/-- A device that came back stays until its Attached is sent. -/
theorem Sound.back_step (h : d.Sound) (hm : Move .own d a d' e)
    (hback : ∀ j, d.usb = .reopened j → (d.devices.get j).isSome = true) (j : ℕ)
    (hu : d'.usb = .reopened j) : (d'.devices.get j).isSome = true := by
  cases hm with
  | reopen id info hr =>
    cases hu
    change ((d.devices.insert j _).get j).isSome = true
    rw [KeyTable.get_insert_self]
    rfl
  | networkInsert id mac serial ht =>
    change ((d.devices.insert id _).get j).isSome = true
    rw [KeyTable.get_insert]
    split_ifs
    · rfl
    · exact hback j hu
  | takeNetwork _ id mac serial ha he =>
    -- the device that came back is a USB device
    have hne : j ≠ id := by
      rintro rfl
      have husb := (h.reopened j hu).2 _ he
      cases husb
    change ((d.devices.remove id).get j).isSome = true
    rw [KeyTable.get_remove_of_ne _ hne]
    exact hback j hu
  | _ => first | exact hback j hu | cases hu

/-- A device whose Attached is sent is there. -/
theorem get_of_attached (hback : ∀ j, d.usb = .reopened j → (d.devices.get j).isSome = true)
    (hnetwork : ∀ id, a = .networkAttached id → (d.devices.get id).isSome = true) {j : ℕ}
    (hm : Move .own d a d' (some (.attached j))) : (d.devices.get j).isSome = true := by
  generalize he : some (DeviceEvent.attached j) = ev at hm
  cases hm with
  | usbConnected id info twin hu hid htwin => cases twin <;> cases he
  | announceTwin id info twin hu htwin =>
    cases twin with
    | none => cases he
    | some n =>
      cases he
      obtain ⟨mac, hget⟩ := Registry.get_of_finds htwin
      rw [hget]
      rfl
  | reopened id hu =>
    cases he
    exact hback j hu
  | networkAttached id ht =>
    cases he
    exact hnetwork j rfl
  | _ => cases he

/-- A device that is inserted is not due. -/
theorem Sound.not_due_of_inserts (h : d.Sound) {id : ℕ} {device : Device}
    (hins : d.inserts a = some (id, device)) : ¬d.Due id := by
  rintro (hshown | hw)
  · rw [Registry.shown_of_get_eq_none (h.vacant.get_inserts hins)] at hshown
    cases hshown
  · unfold inserts at hins
    repeat' split at hins
    all_goals cases hins
    next hu => exact (h.arrival id (by rw [hu]; rfl)).1 (h.mem_of_willDetach hw)
    next hu =>
      have htasks := h.tasks_of_gone (by rw [hu]; rfl)
      rcases hw with hw | hw | ⟨serial, hw, -⟩
      · rw [hu] at hw
        cases hw
      · rw [htasks.2] at hw
        cases hw
      · rw [htasks.2] at hw
        cases hw
    next ht => exact h.connecting id _ _ ht (h.mem_of_willDetach hw)

end Daemon

namespace Broadcasts

/-- What holds of the visible devices while no step leaves one behind. -/
structure Inv (s : Broadcasts) : Prop where
  sound : s.daemon.Sound
  due : ∀ i ∈ s.visible, s.daemon.Due i
  known : ∀ i e, s.daemon.devices.get i = some e → s.known.get i = some e
  /-- No two USB devices in the map have a serial number in common. -/
  single : ∀ i j e f, s.daemon.devices.get i = some e → s.daemon.devices.get j = some f →
    e.isUsb = true → f.isUsb = true → e.serialNumber = f.serialNumber → i = j
  retained : ∀ id info, s.daemon.usb = .retained id info →
    s.daemon.devices.hasUsb (Device.usb info).serialNumber = false
  back : ∀ j, s.daemon.usb = .reopened j → (s.daemon.devices.get j).isSome = true
  distinct : s.OneVisible

theorem inv_start : start.Inv where
  sound := Daemon.sound_start
  due i hi := by cases hi
  known i e he := by cases he
  single i j e f he := by cases he
  retained id info hu := by cases hu
  back j hu := by cases hu
  distinct i hi := by cases hi

section

variable {s t : Broadcasts} {reads : SerialReads} {d' : Daemon} {a : Daemon.Action}
  {e : Option DeviceEvent}

/-- Two shown devices with one serial number are one. -/
theorem Inv.eq_of_shown (hs : s.Inv) {i j : ℕ} (hi : s.daemon.devices.shown i = true)
    (hj : s.daemon.devices.shown j = true) (hserial : s.serialOf i = s.serialOf j) : i = j := by
  obtain ⟨e, he, hei⟩ := Registry.shown_eq_true_iff.mp hi
  obtain ⟨f, hf, hfj⟩ := Registry.shown_eq_true_iff.mp hj
  have hef : e.serialNumber = f.serialNumber := by
    simpa [serialOf, hs.known i e he, hs.known j f hf] using hserial
  -- a network device is not shown beside a USB device
  have hcovers {g : Device} {k : ℕ} (hk : s.daemon.devices.get k = some g)
      (hg : g.isUsb = true) : s.daemon.devices.hasUsb g.serialNumber = true :=
    Registry.hasUsb_eq_true_iff.mpr ⟨k, g, hk, hg, rfl⟩
  cases hie : e.isUsb with
  | true =>
    cases hjf : f.isUsb with
    | true => exact hs.single i j e f he hf hie hjf hef
    | false =>
      have hnone := hfj.resolve_left (by rw [hjf]; exact Bool.false_ne_true)
      rw [← hef, hcovers he hie] at hnone
      cases hnone
  | false =>
    cases hjf : f.isUsb with
    | true =>
      have hnone := hei.resolve_left (by rw [hie]; exact Bool.false_ne_true)
      rw [hef, hcovers hf hjf] at hnone
      cases hnone
    | false =>
      cases e with
      | usb info => cases hie
      | network mac serial =>
        cases f with
        | usb info => cases hjf
        | network mac' serial' =>
          have hserial' : serial = serial' := hef
          exact hs.sound.single i j mac mac' serial he (hserial' ▸ hf)

theorem Inv.snapshot (hs : s.Inv) (h : s.step .snapshot = some t) : t.Inv := by
  cases h
  have hshown {i : ℕ} (hi : i ∈ s.daemon.devices.keys.filter s.daemon.devices.listed) :
      s.daemon.devices.shown i = true :=
    (hs.sound.listed_iff_shown i).mp (List.mem_filter.mp hi).2
  exact { hs with
    due := fun i hi => .inl (hshown hi)
    distinct := fun i hi j hj hserial => hs.eq_of_shown (hshown hi) (hshown hj) hserial }

/-- A USB device is inserted only where no other has its serial number. -/
theorem Inv.alone_of_inserts (hs : s.Inv) (hf : s.daemon.Follows s.visible a) {id : ℕ}
    {device : Device} (hins : s.daemon.inserts a = some (id, device))
    (hu : device.isUsb = true) : s.daemon.devices.hasUsb device.serialNumber = false := by
  unfold Daemon.inserts at hins
  repeat' split at hins
  all_goals cases hins
  next husb => exact hs.retained _ _ husb
  next => exact hf
  next => cases hu

/-- The entries after a step: what was known of them stays known, and USB
devices with one serial number stay one. -/
theorem Inv.registry_step (hs : s.Inv) (hf : s.daemon.Follows s.visible a)
    (hstep : s.daemon.step a = some (d', e)) :
    (∀ i f, d'.devices.get i = some f → (learn s.known (s.daemon.inserts a)).get i = some f) ∧
    (∀ i j f g, d'.devices.get i = some f → d'.devices.get j = some g → f.isUsb = true →
      g.isUsb = true → f.serialNumber = g.serialNumber → i = j) := by
  have hget := hs.sound.vacant.get_step hstep
  have hentry {i : ℕ} {f : Device} (hi : d'.devices.get i = some f) :
      s.daemon.inserts a = some (i, f) ∨ s.daemon.devices.get i = some f :=
    ((hget i f).mp hi).imp_right And.left
  -- a USB device comes in where there is none with its serial number
  have halone {i j : ℕ} {f g : Device} (hi : s.daemon.inserts a = some (i, f))
      (hj : s.daemon.devices.get j = some g) (hu : f.isUsb = true) (hv : g.isUsb = true)
      (hserial : f.serialNumber = g.serialNumber) : i = j := by
    have hnone := hs.alone_of_inserts hf hi hu
    exact absurd hserial.symm (Registry.hasUsb_eq_false_iff.mp hnone j g hj hv)
  constructor
  · intro i f hi
    cases hins : s.daemon.inserts a with
    | none =>
      rcases hentry hi with hnew | hold
      · rw [hins] at hnew
        cases hnew
      · exact hs.known i f hold
    | some entry =>
      change (s.known.insert entry.1 entry.2).get i = some f
      rw [KeyTable.get_insert]
      rcases hentry hi with hnew | hold
      · rw [hins] at hnew
        cases hnew
        exact if_pos rfl
      · -- the id of the new entry had none
        have hne : i ≠ entry.1 := by
          rintro rfl
          rw [hs.sound.vacant.get_inserts hins] at hold
          cases hold
        rw [if_neg hne]
        exact hs.known i f hold
  · intro i j f g hi hj hu hv hserial
    rcases hentry hi with hi | hi <;> rcases hentry hj with hj | hj
    · rw [hi] at hj
      cases hj
      rfl
    · exact halone hi hj hu hv hserial
    · exact (halone hj hi hv hu hserial.symm).symm
    · exact hs.single i j f g hi hj hu hv hserial

/-- What the USB task relies on while it inserts a device. -/
theorem Inv.retained_step (hs : s.Inv) (hm : Daemon.Move .own s.daemon a d' e) (id : ℕ)
    (info : DeviceInfo) (hu : d'.usb = .retained id info) :
    d'.devices.hasUsb (Device.usb info).serialNumber = false := by
  cases hm with
  | usbRetain j new hr =>
    cases hu
    refine Registry.hasUsb_eq_false_iff.mpr fun k f hk _ => ?_
    exact bne_iff_ne.mp ((KeyTable.get_retain_eq_some_iff _ _ k f).mp hk).2
  | networkInsert j mac serial ht =>
    have hid := hs.sound.get_eq_none (hs.sound.connecting j mac serial ht)
    exact (Registry.hasUsb_insert_network mac serial hid).trans (hs.retained id info hu)
  | takeNetwork _ j mac serial ha he =>
    exact Registry.hasUsb_retain_eq_false (hs.retained id info hu)
  | _ => first | exact hs.retained id info hu | cases hu

theorem Inv.get_of_attached (hs : s.Inv) (hf : s.daemon.Follows s.visible a) {j : ℕ}
    (hm : Daemon.Move .own s.daemon a d' (some (.attached j))) :
    (s.daemon.devices.get j).isSome = true := by
  refine Daemon.get_of_attached hs.back ?_ hm
  rintro id rfl
  exact hf

/-- An Attached keeps the serial numbers apart just when it overtakes no
Detached. -/
theorem Inv.attached (hs : s.Inv) (hclean : s.daemon.Clean a)
    (hf : s.daemon.Follows s.visible a) {j : ℕ}
    (hm : Daemon.Move .own s.daemon a d' (some (.attached j))) :
    (∀ i ∈ j :: s.visible, ∀ k ∈ j :: s.visible, s.serialOf i = s.serialOf k → i = k) ↔
      ∀ i ∈ s.visible, i ≠ j → s.daemon.WillDetach i → s.serialOf i ≠ s.serialOf j := by
  have hshown := Daemon.shown_of_attaches hs.sound hclean hm (hs.get_of_attached hf hm)
  constructor
  · intro h i hi hij _ hserial
    exact hij (h i (List.mem_cons_of_mem j hi) j List.mem_cons_self hserial)
  · intro h
    -- another device with the serial number would be shown, or wait for its Detached
    have hother {i : ℕ} (hi : i ∈ s.visible) (hserial : s.serialOf i = s.serialOf j) : i = j := by
      by_contra hij
      rcases hs.due i hi with hsi | hw
      · exact hij (hs.eq_of_shown hsi hshown hserial)
      · exact h i hi hij hw hserial
    intro i hi k hk hserial
    rcases List.mem_cons.mp hi with hij | hi
    · rcases List.mem_cons.mp hk with hkj | hk
      · rw [hij, hkj]
      · rw [hij] at hserial ⊢
        exact (hother hk hserial.symm).symm
    · rcases List.mem_cons.mp hk with hkj | hk
      · rw [hkj] at hserial ⊢
        exact hother hi hserial
      · exact hs.distinct i hi k hk hserial

theorem mem_fold_detached {visible : List ℕ} {i j : ℕ} :
    i ∈ fold visible (some (.detached j)) ↔ i ∈ visible ∧ i ≠ j := by
  simp [fold]

/-- An event leaves what is known as it is. -/
theorem learn_of_event {ev : DeviceEvent} (hm : Daemon.Move .own s.daemon a d' (some ev)) :
    learn s.known (s.daemon.inserts a) = s.known := by
  rw [Daemon.inserts_of_event hm (Option.some_ne_none ev)]
  rfl

/-- The serial number of a visible device stays known. -/
theorem Inv.get_learn (hs : s.Inv) {i : ℕ} (hi : i ∈ s.visible) :
    (learn s.known (s.daemon.inserts a)).get i = s.known.get i := by
  cases hins : s.daemon.inserts a with
  | none => rfl
  | some entry =>
    have hne : i ≠ entry.1 := by
      rintro rfl
      exact hs.sound.not_due_of_inserts hins (hs.due _ hi)
    exact KeyTable.get_insert_of_ne _ _ hne

theorem daemon_step (hs : s.Inv) (htidy : s.Tidy (.daemon reads a))
    (h : s.step (.daemon reads a) = some t) :
    (s.HandsOver (.daemon reads a) → t.Inv) ∧
      (t.OneVisible → s.HandsOver (.daemon reads a)) := by
  obtain ⟨hreads, hclean, hf⟩ := htidy
  obtain ⟨⟨d', e⟩, hstep, rfl⟩ := Option.map_eq_some_iff.mp h
  rw [Daemon.stepRead_eq hreads] at hstep
  have hm := Daemon.move_of_step hstep
  have hattaches := Daemon.attaches_iff hm
  have hregistry := hs.registry_step hf hstep
  have hinv (hdue : ∀ i ∈ fold s.visible e, d'.Due i)
      (hdistinct : OneVisible ⟨d', learn s.known (s.daemon.inserts a), fold s.visible e⟩) :
      Inv ⟨d', learn s.known (s.daemon.inserts a), fold s.visible e⟩ :=
    ⟨hs.sound.step hclean hm, hdue, hregistry.1, hregistry.2, hs.retained_step hm,
      hs.sound.back_step hm hs.back, hdistinct⟩
  cases e with
  | none =>
    refine ⟨fun _ => hinv (fun i hi => (hs.due i hi).step hs.sound hclean hf hm hi) ?_,
      fun _ j hj => ?_⟩
    · intro i hi j hj hserial
      -- an insert changes no serial number of an id that a client has
      have hserial' : s.serialOf i = s.serialOf j := by
        have heq : ((learn s.known (s.daemon.inserts a)).get i).map Device.serialNumber =
          ((learn s.known (s.daemon.inserts a)).get j).map Device.serialNumber := hserial
        rwa [hs.get_learn hi, hs.get_learn hj] at heq
      exact hs.distinct i hi j hj hserial'
    · have hevent := (hattaches j).mp hj
      cases hevent
  | some ev =>
    rw [learn_of_event hm] at hinv ⊢
    cases ev with
    | detached j =>
      refine ⟨fun _ => hinv (fun i hi => ?_) fun i hi k hk => ?_, fun _ k hk => ?_⟩
      · obtain ⟨hvisible, hne⟩ := mem_fold_detached.mp hi
        exact (hs.due i hvisible).event hs.sound hclean hm fun h => by
          cases h
          exact hne rfl
      · exact hs.distinct i (mem_fold_detached.mp hi).1 k (mem_fold_detached.mp hk).1
      · have hevent := (hattaches k).mp hk
        cases hevent
    | attached j =>
      have hexact := hs.attached hclean hf hm
      constructor
      · intro hover
        refine hinv (fun i hi => ?_) (hexact.mpr (hover j ((hattaches j).mpr rfl)))
        -- the new id is shown, the others were due before
        have hdue : s.daemon.Due i := by
          rcases List.mem_cons.mp hi with rfl | hi
          · exact .inl (Daemon.shown_of_attaches hs.sound hclean hm (hs.get_of_attached hf hm))
          · exact hs.due i hi
        exact hdue.event hs.sound hclean hm fun h => by cases h
      · intro hone k hk
        have hevent := (hattaches k).mp hk
        cases hevent
        exact hexact.mp hone

theorem inv_step {a : Action} (hs : s.Inv) (htidy : s.Tidy a) (h : s.step a = some t) :
    (s.HandsOver a → t.Inv) ∧ (t.OneVisible → s.HandsOver a) := by
  cases a with
  | daemon reads a => exact daemon_step hs htidy h
  | snapshot => exact ⟨fun _ => hs.snapshot h, fun _ => trivial⟩

/-- A visible device whose Detached is to come is that of the USB task, or its
removal is under way. -/
theorem not_willDetach {serial : String} {i : ℕ} (hi : i ∈ s.visible)
    (hserial : s.serialOf i = some serial) (hremoving : ¬s.Removing serial)
    (hleaving : s.daemon.usb.detaching ≠ some i) : ¬s.daemon.WillDetach i := by
  rintro (hw | hw | ⟨name, hw, -⟩)
  · exact hleaving hw
  · exact hremoving ⟨i, hi, by rw [hw]; rfl, hserial⟩
  · exact hremoving ⟨i, hi, by rw [hw]; rfl, hserial⟩

theorem Inv.serialOf_eq (hs : s.Inv) {i : ℕ} {f : Device}
    (hi : s.daemon.devices.get i = some f) : s.serialOf i = some f.serialNumber := by
  rw [serialOf, hs.known i f hi]
  rfl

/-- Tasks that act in turn overtake no Detached. -/
theorem Inv.handsOver (hs : s.Inv) {a : Action} (htidy : s.Tidy a) (hturn : s.InTurn a)
    (h : s.step a = some t) : s.HandsOver a := by
  cases a with
  | snapshot => trivial
  | daemon reads a =>
    obtain ⟨hreads, hclean, hf⟩ := htidy
    obtain ⟨⟨d', e⟩, hstep, rfl⟩ := Option.map_eq_some_iff.mp h
    rw [Daemon.stepRead_eq hreads] at hstep
    intro j hj i hi hij hw hserial
    have hm := Daemon.move_of_step hstep
    rw [(Daemon.attaches_iff hm j).mp hj] at hm
    obtain ⟨f, hget⟩ := Option.isSome_iff_exists.mp (hs.get_of_attached hf hm)
    rw [hs.serialOf_eq hget] at hserial
    generalize hev : some (DeviceEvent.attached j) = ev at hm
    cases hm with
    | usbConnected id info twin hu hid htwin => cases twin <;> cases hev
    | announceTwin id info twin hu htwin =>
      cases twin with
      | none => cases hev
      | some k =>
        cases hev
        obtain ⟨hid, hremoving⟩ := hturn id info hu (Option.some_ne_none j)
        obtain ⟨mac, htwin⟩ := Registry.get_of_finds htwin
        rw [hget] at htwin
        cases htwin
        refine not_willDetach hi hserial hremoving ?_ hw
        rw [hu]
        rintro ⟨⟩
        exact hid hi
    | reopened id hu =>
      cases hev
      refine not_willDetach hi hserial (hturn j f hu hget) ?_ hw
      rw [hu]
      nofun
    | networkAttached id ht =>
      cases hev
      obtain ⟨hremoving, hleaving⟩ := hturn f hget
      exact not_willDetach hi hserial hremoving (fun hd => hleaving ⟨i, hi, hd, hserial⟩) hw
    | _ => cases hev

end

/-- When no step leaves a visible device behind, each serial number is that of
one visible device at every moment, if and only if no Attached overtakes the
Detached of a device with its serial number. -/
theorem oneVisible_iff_handsOver (as : List Action)
    (htidy : StepSystem.EveryStep step Tidy start as) :
    StepSystem.EveryState step OneVisible start as ↔
      StepSystem.EveryStep step HandsOver start as :=
  StepSystem.everyState_iff_everyStep_of (fun _ _ _ hs ht h => inv_step hs ht h)
    (fun _ hs => hs.distinct) inv_start htidy

/-- Each serial number is that of one visible device at every moment, in every run
in which no step leaves a visible device behind and the tasks act in turn. -/
theorem oneVisible_of_inTurn (as : List Action)
    (h : StepSystem.EveryStep step (fun s a => s.Tidy a ∧ s.InTurn a) start as) :
    StepSystem.EveryState step OneVisible start as := by
  have hstep (s : Broadcasts) (a : Action) (t : Broadcasts) (hs : s.Inv)
      (ha : s.Tidy a ∧ s.InTurn a) (hst : s.step a = some t) : s.HandsOver a ∧ t.Inv := by
    have hover := hs.handsOver ha.1 ha.2 hst
    exact ⟨hover, (inv_step hs ha.1 hst).1 hover⟩
  have hover := StepSystem.everyStep_of_everyStep hstep inv_start h
  exact (oneVisible_iff_handsOver as (h.mono fun _ _ ha => ha.1)).mpr hover

/-- A device by USB. -/
def usbA : DeviceInfo := ⟨APPLE_VID, some "A", 9⟩

/-- A network device is attached, and gives way to the device by USB, which is
removed again. -/
def givesWay : List Action :=
  [.daemon .own (.serviceResolved 1 "mac" "A"), .daemon .own (.networkInsert 1),
    .daemon .own (.networkCheck 1), .daemon .own (.networkAttached 1),
    .daemon .own (.usbConnected 0 usbA (some 1)), .daemon .own .usbRetain,
    .daemon .own .usbInsert, .daemon .own (.usbDisconnected 0),
    .daemon .own (.announceTwin none), .daemon .own .sendDetached]

theorem oneVisible_of_inTurn_givesWay : StepSystem.EveryState step OneVisible start givesWay := by
  apply oneVisible_of_inTurn
  have hown (s : Broadcasts) (a : Daemon.Action) (hc : s.daemon.Clean a)
      (hf : s.daemon.Follows s.visible a) : s.Tidy (.daemon .own a) :=
    ⟨s.daemon.readsRight_own a, hc, hf⟩
  -- the network device comes while nothing is visible
  refine .intro ⟨hown _ _ trivial trivial, trivial⟩ ?_
  refine .intro ⟨hown _ _ ?_ trivial, trivial⟩ ?_
  · rintro mac serial ⟨⟩
    rfl
  refine .intro ⟨hown _ _ trivial trivial, trivial⟩ ?_
  refine .intro ⟨hown _ _ trivial rfl, ?_⟩ ?_
  · intro e _
    exact ⟨fun ⟨i, hi, _⟩ => absurd hi List.not_mem_nil, fun ⟨i, hi, _⟩ =>
      absurd hi List.not_mem_nil⟩
  -- it gives way
  refine .intro ⟨hown _ _ trivial trivial, trivial⟩ ?_
  refine .intro ⟨hown _ _ trivial ?_, trivial⟩ ?_
  · intro id info _ i hi
    cases hi
  refine .intro ⟨hown _ _ ?_ ?_, trivial⟩ ?_
  · rintro id info ⟨⟩
    rfl
  · intro id info _ i hi
    cases hi
  -- no twin is left when the USB device goes
  refine .intro ⟨hown _ _ trivial trivial, trivial⟩ ?_
  refine .intro ⟨hown _ _ ?_ trivial, ?_⟩ ?_
  · intro id info _ hne
    exact absurd rfl hne
  · intro id info _ hne
    exact absurd rfl hne
  exact .intro ⟨hown _ _ trivial trivial, trivial⟩ trivial

/-- A device is visible by USB and has a network twin when it is unplugged. -/
def unplugged : List Action :=
  [.daemon .own (.usbConnected 0 usbA none), .daemon .own .usbRetain, .daemon .own .usbInsert,
    .daemon .own (.serviceResolved 1 "mac" "A"), .daemon .own (.networkInsert 1),
    .daemon .own (.networkCheck 1), .snapshot, .daemon .own (.usbDisconnected 0),
    .daemon .own (.announceTwin (some 1))]

/-- The twin is told to be attached while the USB device is still visible. -/
theorem not_oneVisible_unplugged : ¬ ∀ as : List Action,
    StepSystem.EveryState step OneVisible start as := by
  intro h
  have hlast := (h unplugged).last rfl
  have heq := hlast 0 (by decide) 1 (by decide) (by decide)
  cases heq

end Broadcasts

end Rusbmux
