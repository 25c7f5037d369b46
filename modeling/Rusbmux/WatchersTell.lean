import Rusbmux.WatchersSound

/-! What each step of the daemon tells the clients, and what it leaves to a
later step of the same task. -/
namespace Rusbmux

/-- The device of the detach event that comes next. -/
def UsbTask.detaching : UsbTask → Option ℕ
  | removed id _ | leaving id | lost id _ => some id
  | _ => none

theorem UsbTask.gone_of_detaching {u : UsbTask} {id : ℕ} (h : u.detaching = some id) :
    u.gone = some id := by
  cases u <;> first | exact h | cases h

namespace Daemon

/-- A task is going to send a detach event. -/
def WillDetach (d : Daemon) (id : ℕ) : Prop :=
  d.usb.detaching = some id ∨ d.removing.get id = some .announcing ∨
    ∃ serial, d.removing.get id = some (.removed serial) ∧ d.devices.hasUsb serial = false

/-- The USB task is going to send an attach event, or to drop the entry. -/
def UsbExcuses (d : Daemon) (id : ℕ) : Prop :=
  match d.usb with
  | .removed _ info => ∃ mac, d.devices.get id = some (.network mac (Device.usb info).serialNumber)
  | .arrived _ info => ∃ e, d.devices.get id = some e ∧
    e.serialNumber = (Device.usb info).serialNumber
  | .reopened j => j = id
  | _ => False

/-- A task is going to send an attach event, or to drop the entry. -/
def Excuses (d : Daemon) (id : ℕ) : Prop :=
  d.UsbExcuses id ∨ d.adding.get id = some .announcing ∨
    ∃ serial, d.adding.get id = some (.inserted serial)

/-- A step without an event leaves nothing untold. -/
structure Silent (d d' : Daemon) : Prop where
  keep : ∀ id, d.devices.shown id = true ∨ d.WillDetach id → d'.devices.shown id = true ∨
    d'.WillDetach id ∨ d.usb.arrival ≠ none ∧ d'.devices.get id = none
  present : ∀ id, (d'.devices.get id).isSome = true →
    d'.devices.shown id = true ∨ (d.devices.get id).isSome = true ∨ id ∉ d.ids
  excuse : ∀ id, d'.devices.shown id = true →
    d.devices.shown id = true ∧ (d.Excuses id → d'.Excuses id) ∨ d'.Excuses id ∨
      d.usb.arrival ≠ none ∧ id ∉ d.ids

/-- A step that tells the clients of a detached device. -/
structure Detaches (d : Daemon) (i : ℕ) (d' : Daemon) : Prop where
  devices : d'.devices = d.devices
  owed : ∀ id, id ≠ i → d.WillDetach id → d'.WillDetach id
  excuse : ∀ id, d.devices.shown id = true → id ≠ i → d.Excuses id → d'.Excuses id
  hidden : d.devices.shown i = true → d'.Excuses i

/-- A step that tells the clients of an attached device. -/
structure Attaches (d : Daemon) (i : ℕ) (d' : Daemon) : Prop where
  devices : d'.devices = d.devices
  owed : ∀ id, d.WillDetach id → d'.WillDetach id
  excuse : ∀ id, d.devices.shown id = true → id ≠ i → d.Excuses id → d'.Excuses id
  shown : (d.devices.get i).isSome = true → d.devices.shown i = true

/-- What a step owes to the clients. -/
def Tells (d d' : Daemon) : Option DeviceEvent → Prop
  | none => d.Silent d'
  | some (.detached i) => d.Detaches i d'
  | some (.attached i) => d.Attaches i d'

theorem Silent.of_devices {d d' : Daemon} (hd : d'.devices = d.devices)
    (howed : ∀ id, d.WillDetach id → d'.WillDetach id)
    (hexcuse : ∀ id, d.devices.shown id = true → d.Excuses id → d'.Excuses id) : d.Silent d' := by
  constructor
  · intro id hid
    rw [hd]
    exact hid.imp_right fun hw => .inl (howed id hw)
  · intro id hid
    rw [hd] at hid
    exact .inr (.inl hid)
  · intro id hid
    rw [hd] at hid
    exact .inl ⟨hid, hexcuse id hid⟩

theorem WillDetach.mono {d d' : Daemon} {id : ℕ} (hw : d.WillDetach id)
    (hu : d.usb.detaching = some id → d'.usb.detaching = some id)
    (hr : d'.removing.get id = d.removing.get id)
    (hn : ∀ serial, d.removing.get id = some (.removed serial) →
      d.devices.hasUsb serial = false → d'.devices.hasUsb serial = false) : d'.WillDetach id := by
  rcases hw with hw | hw | ⟨serial, hs, hf⟩
  · exact .inl (hu hw)
  · exact .inr (.inl (hr.trans hw))
  · exact .inr (.inr ⟨serial, hr.trans hs, hn serial hs hf⟩)

theorem Excuses.mono {d d' : Daemon} {id : ℕ} (hx : d.Excuses id)
    (hu : d.UsbExcuses id → d'.UsbExcuses id)
    (ha : d'.adding.get id = d.adding.get id) : d'.Excuses id := by
  rcases hx with hx | hx | ⟨serial, hs⟩
  · exact .inl (hu hx)
  · exact .inr (.inl (ha.trans hx))
  · exact .inr (.inr ⟨serial, ha.trans hs⟩)

theorem UsbExcuses.congr {d d' : Daemon} {id : ℕ} (hx : d.UsbExcuses id) (hu : d'.usb = d.usb)
    (hd : d'.devices.get id = d.devices.get id) : d'.UsbExcuses id := by
  rw [UsbExcuses] at hx ⊢
  rw [hu]
  cases husb : d.usb <;> simp_all

theorem not_usbExcuses_of_idle {d : Daemon} (hu : d.usb = .idle) (id : ℕ) : ¬d.UsbExcuses id := by
  rw [UsbExcuses, hu]
  exact not_false

/-- Entries go without an event. -/
theorem Silent.retain {d d' : Daemon} (p : ℕ → Device → Bool)
    (hd : d'.devices = d.devices.retain p)
    (hgone : ∀ id, d.devices.shown id = true → d'.devices.get id = none →
      d'.WillDetach id ∨ d.usb.arrival ≠ none)
    (hu : ∀ id, d.usb.detaching = some id → d'.usb.detaching = some id)
    (hr : ∀ id, d.WillDetach id → d'.removing.get id = d.removing.get id)
    (hexcuse : ∀ id, d'.devices.shown id = true →
      d.devices.shown id = true ∧ (d.Excuses id → d'.Excuses id) ∨ d'.Excuses id) :
    d.Silent d' := by
  -- a search that finds no USB device finds none among fewer entries
  have howed : ∀ id, d.WillDetach id → d'.WillDetach id := by
    intro id hw
    apply hw.mono (hu id) (hr id hw)
    rw [hd]
    exact fun _ _ => Registry.hasUsb_retain_eq_false
  constructor
  · rintro id (hs | hw)
    · cases hget : d'.devices.get id with
      | none => exact .inr ((hgone id hs hget).imp_right fun ha => ⟨ha, rfl⟩)
      | some e =>
        left
        rw [hd] at hget ⊢
        exact Registry.shown_retain hs (by rw [hget]; rfl)
    · exact .inr (.inl (howed id hw))
  · intro id hs
    obtain ⟨e, he⟩ := Option.isSome_iff_exists.mp hs
    rw [hd] at he
    have hget := ((d.devices.get_retain_eq_some_iff p id e).mp he).1
    exact .inr (.inl (by rw [hget]; rfl))
  · exact fun id hs => (hexcuse id hs).imp_right .inl

theorem silent_usbRetain {d : Daemon} {id : ℕ} {info : DeviceInfo} (hu : d.usb = .arrived id info) :
    d.Silent { d with
      devices := d.devices.retain fun _ e => e.serialNumber != (Device.usb info).serialNumber
      usb := .retained id info } := by
  apply Silent.retain fun _ e => e.serialNumber != (Device.usb info).serialNumber
  · rfl
  · intro j _ _
    right
    rw [hu]
    exact Option.some_ne_none id
  · rw [hu]
    nofun
  · exact fun _ _ => rfl
  · intro j hs
    left
    obtain ⟨e, he⟩ := Option.isSome_iff_exists.mp (Registry.isSome_of_shown hs)
    have hkept := (d.devices.get_retain_eq_some_iff _ j e).mp he
    constructor
    · -- only devices with the new device's serial number go
      apply Registry.shown_of_retain hs
      intro e' k u hj hk hserial
      have hee : e = e' := Option.some.inj (hkept.1.symm.trans hj)
      rw [hserial, ← hee]
      exact hkept.2
    · intro hx
      apply hx.mono
      · intro hxu
        rw [UsbExcuses, hu] at hxu
        obtain ⟨e', he', hserial⟩ := hxu
        have hee : e = e' := Option.some.inj (hkept.1.symm.trans he')
        have hne := hkept.2
        rw [hee, hserial, bne_self_eq_false] at hne
        cases hne
      · rfl

theorem silent_usbDisconnected {d : Daemon} {id : ℕ} {info : DeviceInfo} (hu : d.usb = .idle)
    (he : d.devices.get id = some (.usb info)) :
    d.Silent { d with devices := d.devices.remove id, usb := .removed id info } := by
  apply Silent.retain fun j _ => j ≠ id
  · rfl
  · intro j hs hget
    left
    left
    -- the only entry that goes is the one of the device
    by_contra hne
    have hj : j ≠ id := fun hji => hne (congrArg some hji.symm)
    rw [d.devices.get_remove_of_ne hj] at hget
    rw [Registry.shown_of_get_eq_none hget] at hs
    cases hs
  · rw [hu]
    nofun
  · exact fun _ _ => rfl
  · intro j hs
    obtain ⟨e, hkept, hcase⟩ := Registry.shown_eq_true_iff.mp hs
    have hj : j ≠ id := by
      rintro rfl
      rw [d.devices.get_remove_self] at hkept
      cases hkept
    have hget := hkept
    rw [d.devices.get_remove_of_ne hj] at hget
    have hexcuse : d.Excuses j → Excuses { d with
        devices := d.devices.remove id, usb := .removed id info } j := fun hx =>
      hx.mono (fun hxu => absurd hxu (not_usbExcuses_of_idle hu j)) rfl
    -- a USB device is always shown, a network device may be uncovered
    cases e with
    | usb i => exact .inl ⟨Registry.shown_eq_true_iff.mpr ⟨_, hget, .inl rfl⟩, hexcuse⟩
    | network mac name =>
      by_cases hname : name = (Device.usb info).serialNumber
      · -- the network twin, to be announced by the same task
        subst hname
        exact .inr (.inl ⟨mac, hkept⟩)
      · refine .inl ⟨Registry.shown_of_retain hs ?_, hexcuse⟩
        intro e' k u hj' hk hserial
        have hee : e' = .network mac name := Option.some.inj (hj'.symm.trans hget)
        rw [hee] at hserial
        refine decide_eq_true ?_
        rintro rfl
        rw [he] at hk
        cases hk
        exact hname hserial.symm

theorem silent_notice {d : Daemon} {id : ℕ} {o : UInt64} (hu : d.usb = .idle)
    (ho : d.readers.get id = some o) (hc : d.Clean (.notice id)) :
    d.Silent { d with
      devices := d.devices.retain fun _ e => e.opaqueId != o
      readers := d.readers.remove id
      usb := .lost id o } := by
  have hclean := hc o ho
  apply Silent.retain fun _ e => e.opaqueId != o
  · rfl
  · intro j hs hget
    left
    left
    rcases (hclean j).1 hs with rfl | hsome
    · rfl
    · change (d.devices.retain _).get j = none at hget
      rw [hget] at hsome
      cases hsome
  · rw [hu]
    nofun
  · exact fun _ _ => rfl
  · intro j hs
    -- what the entries uncover is announced by a task of its own
    rcases (hclean j).2 hs with hold | hins
    · refine .inl ⟨hold, fun hx => ?_⟩
      exact hx.mono (fun hxu => absurd hxu (not_usbExcuses_of_idle hu j)) rfl
    · exact .inr (.inr (.inr hins))

/-- The search before an arrival: the network twin is told to be detached, and
`retain` drops its entry next. -/
theorem tells_usbConnected {d : Daemon} {id : ℕ} {info : DeviceInfo} {twin : Option ℕ}
    (hu : d.usb = .idle)
    (htwin : d.devices.finds (Device.usb info).serialNumber twin = true) :
    d.Tells { d with usb := .arrived id info } (twin.map .detached) := by
  have howed : ∀ j, d.WillDetach j → WillDetach { d with usb := .arrived id info } j := by
    intro j hw
    refine hw.mono (fun hd => ?_) rfl (fun _ _ hn => hn)
    rw [hu] at hd
    cases hd
  have hexcuse : ∀ j, d.Excuses j → Excuses { d with usb := .arrived id info } j := fun j hx =>
    hx.mono (fun hxu => absurd hxu (not_usbExcuses_of_idle hu j)) rfl
  cases twin with
  | none => exact Silent.of_devices rfl howed fun j _ => hexcuse j
  | some n =>
    refine ⟨rfl, fun j _ => howed j, fun j _ _ => hexcuse j, fun _ => ?_⟩
    obtain ⟨mac, he⟩ := Registry.get_of_finds htwin
    exact .inl ⟨_, he, rfl⟩

/-- A task of a new network device ends or goes on without an event. -/
theorem silent_adding {d : Daemon} (adding : KeyTable ℕ AddTask)
    (hx : ∀ j, d.devices.shown j = true → d.adding.get j = some .announcing ∨
      (∃ serial, d.adding.get j = some (.inserted serial)) →
      adding.get j = some .announcing ∨ ∃ serial, adding.get j = some (.inserted serial)) :
    d.Silent { d with adding := adding } := by
  apply Silent.of_devices
  · rfl
  · exact fun _ hw => hw
  · intro j hs hxs
    exact hxs.imp_right (hx j hs)

/-- A removal that ends without an event owed none, because the device was covered. -/
theorem silent_removalCovered {d : Daemon} {id : ℕ} {serial : String}
    (ht : d.removing.get id = some (.removed serial)) (hu : d.devices.hasUsb serial = true) :
    d.Silent { d with removing := d.removing.remove id } := by
  apply Silent.of_devices
  · rfl
  · rintro j (hw | hw | ⟨name, hr, hn⟩)
    · exact .inl hw
    · have hj : j ≠ id := by
        rintro rfl
        rw [ht] at hw
        cases hw
      exact .inr (.inl ((d.removing.get_remove_of_ne hj).trans hw))
    · have hj : j ≠ id := by
        rintro rfl
        rw [ht] at hr
        cases hr
        exact Bool.false_ne_true (hn.symm.trans hu)
      exact .inr (.inr ⟨name, (d.removing.get_remove_of_ne hj).trans hr, hn⟩)
  · exact fun _ _ hx => hx

/-- A removal that finds no USB device goes on to its event. -/
theorem silent_removalShown {d : Daemon} (id : ℕ) :
    d.Silent { d with removing := d.removing.insert id .announcing } := by
  apply Silent.of_devices
  · rfl
  · intro j hw
    by_cases hj : j = id
    · subst hj
      exact .inr (.inl (d.removing.get_insert_self j _))
    · exact hw.mono (fun hd => hd) (d.removing.get_insert_of_ne _ hj) (fun _ _ hn => hn)
  · exact fun _ _ hx => hx

section

variable {d : Daemon} (h : d.Sound)
include h

/-- A present device waits for no detach event. -/
theorem Sound.get_of_willDetach {id : ℕ} (hw : d.WillDetach id) : d.devices.get id = none := by
  rcases hw with hu | hr | ⟨serial, hr, -⟩
  · exact (h.gone id (UsbTask.gone_of_detaching hu)).2
  · exact (h.removing id _ hr).2
  · exact (h.removing id _ hr).2

theorem Sound.mem_of_willDetach {id : ℕ} (hw : d.WillDetach id) : id ∈ d.ids := by
  rcases hw with hu | hr | ⟨serial, hr, -⟩
  · exact (h.gone id (UsbTask.gone_of_detaching hu)).1
  · exact (h.removing id _ hr).1
  · exact (h.removing id _ hr).1

/-- An entry comes in without an event. -/
theorem Sound.silent_insert {d' : Daemon} {id : ℕ} {e : Device}
    (hd : d'.devices = d.devices.insert id e) (hid : d.devices.get id = none)
    (hcover : ∀ j, d.devices.shown j = true → d'.devices.shown j = true)
    (hself : ¬d.WillDetach id)
    (howed : ∀ j, j ≠ id → d.WillDetach j → d'.WillDetach j ∨ d.usb.arrival ≠ none)
    (hnew : d'.devices.shown id = true ∨ id ∉ d.ids)
    (hexcuse : ∀ j, j ≠ id → d.Excuses j → d'.Excuses j)
    (htold : d'.devices.shown id = true →
      d'.Excuses id ∨ d.usb.arrival ≠ none ∧ id ∉ d.ids) :
    d.Silent d' := by
  have hother : ∀ j, j ≠ id → d'.devices.get j = d.devices.get j := by
    intro j hj
    rw [hd]
    exact d.devices.get_insert_of_ne e hj
  constructor
  · rintro j (hs | hw)
    · exact .inl (hcover j hs)
    · -- the client waits for a detach event of another device
      have hj : j ≠ id := by
        rintro rfl
        exact hself hw
      rcases howed j hj hw with hw' | ha
      · exact .inr (.inl hw')
      · exact .inr (.inr ⟨ha, (hother j hj).trans (h.get_of_willDetach hw)⟩)
  · intro j hs
    by_cases hj : j = id
    · subst hj
      exact hnew.imp_right .inr
    · rw [hother j hj] at hs
      exact .inr (.inl hs)
  · intro j hs
    by_cases hj : j = id
    · subst hj
      exact .inr (htold hs)
    · rw [hd] at hs
      exact .inl ⟨Registry.shown_of_insert hid hj hs, hexcuse j hj⟩

/-- No client has begun its snapshot while a device arrives, so nobody has to
be told. -/
theorem Sound.silent_usbInsert {id : ℕ} {info : DeviceInfo} (hu : d.usb = .retained id info)
    (hc : d.devices.coversNone (Device.usb info).serialNumber = true) :
    d.Silent { d with
      devices := d.devices.insert id (.usb info)
      ids := id :: d.ids
      readers := d.readers.insert id info.opaqueId
      usb := .idle } := by
  have harr : d.usb.arrival ≠ none := by
    rw [hu]
    exact Option.some_ne_none id
  have hnew := (h.arrival id (by rw [hu]; rfl)).1
  have hid := h.get_eq_none hnew
  apply h.silent_insert (e := .usb info) rfl hid
  · exact fun j hs => Registry.shown_insert_usb hid hc hs
  · exact fun hw => hnew (h.mem_of_willDetach hw)
  · exact fun _ _ _ => .inr harr
  · exact .inr hnew
  · intro j hj hx
    refine hx.mono (fun hxu => ?_) rfl
    rw [UsbExcuses, hu] at hxu
    exact hxu.elim
  · exact fun _ => .inr ⟨harr, hnew⟩

theorem Sound.silent_reopen {id : ℕ} {info : DeviceInfo}
    (hu : d.usb = .reopening id info.opaqueId) (hc : d.Clean (.reopen info)) :
    d.Silent { d with
      devices := d.devices.insert id (.usb info)
      readers := d.readers.insert id info.opaqueId
      usb := .reopened id } := by
  have hgone : d.usb.gone = some id := by rw [hu]; rfl
  have hid := (h.gone id hgone).2
  have htasks := h.tasks_of_gone hgone
  apply h.silent_insert (e := .usb info) rfl hid
  · exact fun j hs => Registry.shown_insert_usb hid hc.1 hs
  · rintro (hw | hw | ⟨serial, hw, -⟩)
    · rw [hu] at hw
      cases hw
    · rw [htasks.2] at hw
      cases hw
    · rw [htasks.2] at hw
      cases hw
  · intro j hj hw
    left
    apply hw.mono
    · rw [hu]
      nofun
    · rfl
    · -- the device has not the serial number of a removal that waits for its search
      intro serial hr hn
      rw [← Bool.not_eq_true, Registry.hasUsb_insert hid, hn]
      rintro (ht | ⟨-, hserial⟩)
      · cases ht
      · exact hc.2 j (by rw [hr, hserial])
  · exact .inl (Registry.shown_insert_usb_self info)
  · intro j hj hx
    refine hx.mono (fun hxu => ?_) rfl
    rw [UsbExcuses, hu] at hxu
    exact hxu.elim
  · exact fun _ => .inl (.inl rfl)

theorem Sound.silent_networkInsert {id : ℕ} {mac serial : String}
    (ht : d.adding.get id = some (.connecting mac serial)) :
    d.Silent { d with
      devices := d.devices.insert id (.network mac serial)
      ids := id :: d.ids
      adding := d.adding.insert id (.inserted serial) } := by
  have hnew := h.connecting id mac serial ht
  have hid := h.get_eq_none hnew
  apply h.silent_insert (e := .network mac serial) rfl hid
  · exact fun j hs => Registry.shown_insert_network hid hs
  · exact fun hw => hnew (h.mem_of_willDetach hw)
  · intro j hj hw
    left
    refine hw.mono (fun hd => hd) rfl ?_
    intro name hr hn
    exact (Registry.hasUsb_insert_network mac serial hid).trans hn
  · exact .inr hnew
  · intro j hj hx
    apply hx.mono
    · exact fun hxu => hxu.congr rfl (d.devices.get_insert_of_ne _ hj)
    · exact d.adding.get_insert_of_ne _ hj
  · exact fun _ => .inl (.inr (.inr ⟨serial, d.adding.get_insert_self id _⟩))

/-- The entry of a network device goes, and the removal tells unless the
device is hidden. -/
theorem Sound.silent_takeNetwork {id : ℕ} {mac serial : String}
    (he : d.devices.get id = some (.network mac serial)) :
    d.Silent (d.takeNetwork id serial) := by
  apply Silent.retain fun j _ => j ≠ id
  · rfl
  · intro j hs hget
    change (d.devices.remove id).get j = none at hget
    by_cases hj : j = id
    · subst hj
      left
      -- the device was shown, so the search will find no USB device
      refine .inr (.inr ⟨serial, d.removing.get_insert_self j _, ?_⟩)
      apply Registry.hasUsb_retain_eq_false
      obtain ⟨e, hget', hcase⟩ := Registry.shown_eq_true_iff.mp hs
      have hee : e = .network mac serial := Option.some.inj (hget'.symm.trans he)
      subst hee
      exact hcase.resolve_left Bool.false_ne_true
    · rw [d.devices.get_remove_of_ne hj] at hget
      rw [Registry.shown_of_get_eq_none hget] at hs
      cases hs
  · exact fun _ hd => hd
  · intro j hw
    have hj : j ≠ id := by
      rintro rfl
      rw [h.get_of_willDetach hw] at he
      cases he
    exact d.removing.get_insert_of_ne _ hj
  · intro j hs
    left
    obtain ⟨e, hget⟩ := Option.isSome_iff_exists.mp (Registry.isSome_of_shown hs)
    have hj : j ≠ id := by
      rintro rfl
      change (d.devices.remove j).get j = some e at hget
      rw [d.devices.get_remove_self] at hget
      cases hget
    -- no USB device goes, so what is shown now was shown before
    constructor
    · apply Registry.shown_of_retain hs
      intro e' k u hj' hk hserial
      refine decide_eq_true ?_
      rintro rfl
      rw [he] at hk
      cases hk
    · intro hx
      exact hx.mono (fun hxu => hxu.congr rfl (d.devices.get_remove_of_ne hj)) rfl

/-- The search after a removal: the network twin is told to be attached. -/
theorem Sound.tells_announceTwin {id : ℕ} {info : DeviceInfo} {twin : Option ℕ}
    (hu : d.usb = .removed id info)
    (htwin : d.devices.finds (Device.usb info).serialNumber twin = true)
    (hc : d.Clean (.announceTwin twin)) :
    d.Tells { d with usb := .leaving id } (twin.map .attached) := by
  have howed : ∀ j, d.WillDetach j → WillDetach { d with usb := .leaving id } j := by
    intro j hw
    refine hw.mono (fun hd => ?_) rfl (fun _ _ hn => hn)
    rw [hu] at hd
    exact hd
  cases twin with
  | none =>
    refine Silent.of_devices rfl howed fun j _ hx => hx.mono (fun hxu => ?_) rfl
    rw [UsbExcuses, hu] at hxu
    obtain ⟨mac, he⟩ := hxu
    have hnet := Registry.hasNetwork_eq_true_iff.mpr ⟨j, mac, he⟩
    rw [Registry.finds, hnet] at htwin
    cases htwin
  | some n =>
    obtain ⟨mac, he⟩ := Registry.get_of_finds htwin
    refine ⟨rfl, howed, fun j _ hj hx => hx.mono (fun hxu => ?_) rfl, fun _ => ?_⟩
    · -- no other network device has the serial number
      rw [UsbExcuses, hu] at hxu
      obtain ⟨mac', he'⟩ := hxu
      exact absurd (h.single j n mac' mac _ he' he) hj
    · have hn := hc id info hu (Option.some_ne_none n)
      exact Registry.shown_eq_true_iff.mpr ⟨_, he, .inr hn⟩

/-- The detach event of the USB task. -/
theorem Sound.detaches_usb {id : ℕ} {usb : UsbTask} (hu : d.usb.detaching = some id)
    (hx : ∀ j, ¬d.UsbExcuses j) : d.Detaches id { d with usb := usb } := by
  refine ⟨rfl, fun j hj hw => ?_, fun j _ _ hxs => ?_, fun hs => ?_⟩
  · refine hw.mono (fun hd => ?_) rfl (fun _ _ hn => hn)
    rw [hu] at hd
    exact absurd (Option.some.inj hd).symm hj
  · exact hxs.mono (fun hxu => absurd hxu (hx j)) rfl
  · rw [Registry.shown_of_get_eq_none (h.get_of_willDetach (.inl hu))] at hs
    cases hs

theorem Sound.attaches_reopened {id : ℕ} (hu : d.usb = .reopened id) :
    d.Attaches id { d with usb := .idle } := by
  refine ⟨rfl, fun j hw => ?_, fun j _ hj hx => ?_, fun hp => ?_⟩
  · refine hw.mono (fun hd => ?_) rfl (fun _ _ hn => hn)
    rw [hu] at hd
    cases hd
  · refine hx.mono (fun hxu => ?_) rfl
    rw [UsbExcuses, hu] at hxu
    exact absurd hxu.symm hj
  · obtain ⟨e, he⟩ := Option.isSome_iff_exists.mp hp
    exact Registry.shown_eq_true_iff.mpr ⟨e, he, .inl ((h.reopened id hu).2 e he)⟩

/-- The detach event of a removal. -/
theorem Sound.detaches_removal {id : ℕ} (ht : d.removing.get id = some .announcing) :
    d.Detaches id { d with removing := d.removing.remove id } := by
  refine ⟨rfl, fun j hj hw => ?_, fun j _ _ hx => hx, fun hs => ?_⟩
  · exact hw.mono (fun hd => hd) (d.removing.get_remove_of_ne hj) (fun _ _ hn => hn)
  · rw [Registry.shown_of_get_eq_none (h.removing id _ ht).2] at hs
    cases hs

/-- Every clean step tells the clients what it changes, or leaves it to a later
step of its task. -/
theorem Sound.tells {a : Action} {d' : Daemon} {e : Option DeviceEvent} (hc : d.Clean a)
    (hm : Move .own d a d' e) : d.Tells d' e := by
  cases hm with
  | usbConnected id info twin hu hid htwin => exact tells_usbConnected hu htwin
  | usbRetain id info hu => exact silent_usbRetain hu
  | usbInsert id info hu => exact h.silent_usbInsert hu (hc id info hu)
  | usbDisconnected id info hu he => exact silent_usbDisconnected hu he
  | deviceNotFound id hu he => exact Silent.of_devices rfl (fun _ hw => hw) fun _ _ hx => hx
  | shutdownFails id info hu => exact hc.elim
  | announceTwin id info twin hu htwin => exact h.tells_announceTwin hu htwin hc
  | left id hu =>
    -- the Detached of the device that the task has in hand
    apply h.detaches_usb
    · rw [hu]
      rfl
    · intro j hx
      rw [UsbExcuses, hu] at hx
      exact hx
  | notice id o hu ho => exact silent_notice hu ho hc
  | lost id o hu =>
    apply h.detaches_usb
    · rw [hu]
      rfl
    · intro j hx
      rw [UsbExcuses, hu] at hx
      exact hx
  | reopenFails id o hu =>
    -- the task gives the device up, and no entry changes
    apply Silent.of_devices
    · rfl
    · intro j hw
      refine hw.mono (fun hd => ?_) rfl (fun _ _ hn => hn)
      rw [hu] at hd
      cases hd
    · intro j _ hx
      refine hx.mono (fun hxu => ?_) rfl
      rw [UsbExcuses, hu] at hxu
      exact hxu.elim
  | reopen id info hu => exact h.silent_reopen hu hc
  | reopened id hu => exact h.attaches_reopened hu
  | alreadyAdded id mac serial =>
    exact Silent.of_devices rfl (fun _ hw => hw) fun _ _ hx => hx
  | serviceResolved id mac serial hid =>
    have hnone := (isNew_eq_true_iff.mp hid).2.1
    apply silent_adding
    intro j _
    grind [KeyTable.get_insert]
  | networkFails id mac serial ht =>
    apply silent_adding
    intro j _
    grind [KeyTable.get_remove]
  | networkInsert id mac serial ht => exact h.silent_networkInsert ht
  | addCovered id serial ht hu =>
    apply silent_adding
    intro j hs
    -- the device is covered, so that nobody waits to be told of it
    have hj : j ≠ id := by
      rintro rfl
      obtain ⟨e, he, hcase⟩ := Registry.shown_eq_true_iff.mp hs
      have hins := (h.inserted j serial ht).2 e he
      have hcovered : d.devices.hasUsb serial = true := hu
      rw [hins.1, hins.2, hcovered] at hcase
      simp at hcase
    rw [d.adding.get_remove_of_ne hj]
    exact fun hx => hx
  | addShown id serial ht hu =>
    apply silent_adding
    intro j _
    grind [KeyTable.get_insert]
  | networkAttached id ht =>
    -- the Attached itself: the entry, if it is still there, is shown
    refine ⟨rfl, fun j hw => hw, fun j _ hj hx => ?_, fun hp => ?_⟩
    · exact hx.mono (fun hxu => hxu) (d.adding.get_remove_of_ne hj)
    · obtain ⟨e, he⟩ := Option.isSome_iff_exists.mp hp
      exact ((h.announcing id ht).2 e he).2
  | takeNetwork a id mac serial ha he => exact h.silent_takeNetwork he
  | removalCovered id serial ht hu => exact silent_removalCovered ht hu
  | removalShown id serial ht hu => exact silent_removalShown id
  | removalDetached id ht => exact h.detaches_removal ht

end

end Daemon

end Rusbmux
