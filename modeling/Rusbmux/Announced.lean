import Rusbmux.HandOver

/-! The devices that the events of the daemon leave attached, and the steps
whose events come in their turn. -/
namespace Rusbmux

/-- Of one device, Attached and Detached take turns. The state is whether the
device is attached. -/
def turn (id : ℕ) : Bool → DeviceEvent → Option Bool
  | attached, .attached j =>
    if j = id then if attached then none else some true else some attached
  | attached, .detached j =>
    if j = id then if attached then some false else none else some attached

/-- Whether the device is attached after the messages, if they take turns. -/
def turns (id : ℕ) (messages : List DeviceEvent) : Option Bool :=
  StepSystem.after (turn id) false messages

/-- The messages about each device alternate, Attached first. -/
def Alternates (messages : List DeviceEvent) : Prop :=
  ∀ id, (turns id messages).isSome = true

theorem turns_append (id : ℕ) (ms ns : List DeviceEvent) :
    turns id (ms ++ ns) = (turns id ms).bind fun attached =>
      StepSystem.after (turn id) attached ns := StepSystem.after_append _ _ _

theorem turn_of_ne {id : ℕ} {e : DeviceEvent} (h : e.id ≠ id) (attached : Bool) :
    turn id attached e = some attached := by
  cases e with
  | attached j => exact if_neg h
  | detached j => exact if_neg h

/-- Messages about other devices change nothing. -/
theorem after_of_ne {id : ℕ} {ms : List DeviceEvent} (h : ∀ e ∈ ms, e.id ≠ id)
    (attached : Bool) : StepSystem.after (turn id) attached ms = some attached := by
  induction ms with
  | nil => rfl
  | cons e ms ih =>
    rw [StepSystem.after, turn_of_ne (h e List.mem_cons_self), Option.bind_some]
    exact ih fun e' he' => h e' (List.mem_cons_of_mem e he')

namespace Daemon

/-- The device of the detach event that a step sends. -/
def detaches (d : Daemon) : Action → Option ℕ
  | .usbConnected _ _ twin => match d.usb with
    | .idle => twin
    | _ => none
  | .sendDetached => match d.usb with
    | .leaving id | .lost id _ => some id
    | _ => none
  | .removalDetached id => match d.removing.get id with
    | some .announcing => some id
    | _ => none
  | _ => none

/-- The events sent so far leave the device attached. -/
def Announced (d : Daemon) (id : ℕ) : Prop :=
  d.devices.shown id = true ∧ ¬d.Excuses id ∨ d.WillDetach id

/-- The removals that wait for their search keep the USB devices that cover them. -/
def KeepsCovers (d : Daemon) (devices : Registry) : Prop :=
  ∀ n serial, d.removing.get n = some (.removed serial) → d.devices.hasUsb serial = true →
    devices.hasUsb serial = true

/-- No departure is told twice, no arrival is told by two tasks or of a device
that is gone, and no network device is removed before its Attached is sent. -/
def Orderly (d : Daemon) : Action → Prop
  | .usbDisconnected id => d.KeepsCovers (d.devices.remove id)
  | .notice id => (d.devices.get id).isSome = true ∧ ∀ o, d.readers.get id = some o →
    d.KeepsCovers (d.devices.retain fun _ e => e.opaqueId != o)
  | .announceTwin twin => ∀ n, twin = some n → d.adding.get n = none
  | .networkAttached id => (d.devices.get id).isSome = true ∧ ¬d.UsbExcuses id
  | .serviceRemoved id _ | .heartbeatFails id => d.devices.shown id = true → ¬d.Excuses id
  | _ => True

variable {d d' : Daemon} {a : Action} {e : Option DeviceEvent}

theorem detaches_iff (hm : Move .own d a d' e) (j : ℕ) :
    d.detaches a = some j ↔ e = some (.detached j) := by
  cases hm with
  | usbConnected id info twin hu hid ht => cases twin <;> simp [detaches, hu]
  | left id hu => simp [detaches, hu]
  | lost id o hu => simp [detaches, hu]
  | removalDetached id ht => simp [detaches, ht]
  | announceTwin id info twin hu ht => cases twin <;> simp [detaches]
  | takeNetwork _ id mac serial ha he => rcases ha with rfl | rfl <;> simp [detaches]
  | _ => simp [detaches]

theorem not_excuses {j : ℕ} (husb : ¬d.UsbExcuses j) (hadding : d.adding.get j = none) :
    ¬d.Excuses j := by
  rintro (hx | hx | ⟨serial, hx⟩)
  · exact husb hx
  · rw [hadding] at hx
    cases hx
  · rw [hadding] at hx
    cases hx

theorem UsbExcuses.of_get {j : ℕ} (hu : d'.usb = d.usb)
    (hd : ∀ f, d'.devices.get j = some f → d.devices.get j = some f) (hx : d'.UsbExcuses j) :
    d.UsbExcuses j := by
  rw [UsbExcuses, hu] at hx
  rw [UsbExcuses]
  cases husb : d.usb with
  | removed id info =>
    rw [husb] at hx
    exact hx.imp fun mac => hd _
  | arrived id info =>
    rw [husb] at hx
    exact hx.imp fun f => And.imp_left (hd f)
  | reopened id =>
    rw [husb] at hx
    exact hx
  | _ =>
    rw [husb] at hx
    exact hx

/-- A USB device is announced while its task is idle. -/
theorem Sound.announced_usb {j : ℕ} {info : DeviceInfo} (h : d.Sound) (hu : d.usb = .idle)
    (he : d.devices.get j = some (.usb info)) : d.Announced j := by
  have hshown : d.devices.shown j = true :=
    Registry.shown_eq_true_iff.mpr ⟨.usb info, he, .inl rfl⟩
  exact .inl ⟨hshown, not_excuses (not_usbExcuses_of_idle hu j) (h.tasks_of_usb he).1⟩

/-- The removals under way stay covered. -/
theorem announced_of_keepsCovers {j : ℕ} (hw : d'.WillDetach j) (hk : d.KeepsCovers d'.devices)
    (hr : d'.removing = d.removing) (hu : d'.usb.detaching = some j → d.Announced j) :
    d.Announced j := by
  rcases hw with hw | hw | ⟨serial, hw, hn⟩
  · exact hu hw
  · rw [hr] at hw
    exact .inr (.inr (.inl hw))
  · rw [hr] at hw
    have hnone : d.devices.hasUsb serial = false := by
      rw [← Bool.not_eq_true]
      intro ht
      rw [hk j serial hw ht] at hn
      cases hn
    exact .inr (.inr (.inr ⟨serial, hw, hnone⟩))

/-- A network device that is removed was announced, if its removal tells. -/
theorem Sound.announced_of_takeNetwork {id j : ℕ} {mac serial : String} (h : d.Sound)
    (he : d.devices.get id = some (.network mac serial))
    (hx : d.devices.shown id = true → ¬d.Excuses id)
    (hw : (d.takeNetwork id serial).WillDetach j) : d.Announced j := by
  by_cases hj : j = id
  · subst hj
    have hnew : (d.takeNetwork j serial).removing.get j = some (.removed serial) :=
      d.removing.get_insert_self j _
    rcases hw with hw | hw | ⟨name, hw, hn⟩
    · have hgone := (h.gone j (UsbTask.gone_of_detaching hw)).2
      rw [he] at hgone
      cases hgone
    · rw [hnew] at hw
      cases hw
    · -- the search finds no USB device, so that the device was shown
      rw [hnew] at hw
      cases hw
      have hshown : d.devices.shown j = true := Registry.shown_eq_true_iff.mpr
        ⟨_, he, .inr (Registry.hasUsb_of_remove_network he hn)⟩
      exact .inl ⟨hshown, hx hshown⟩
  · exact .inr (hw.mono (fun hd => hd) (d.removing.get_insert_of_ne _ hj).symm
      fun _ _ hn => Registry.hasUsb_of_remove_network he hn)

/-- The removal of one device takes a step. -/
theorem announced_of_removing {id j : ℕ} {removing : KeyTable ℕ RemoveTask}
    (hw : WillDetach { d with removing := removing } j)
    (hother : j ≠ id → removing.get j = d.removing.get j)
    (hself : j = id → ∀ task, removing.get j = some task → d.WillDetach j) : d.Announced j := by
  by_cases hj : j = id
  · rcases hw with hw | hw | ⟨serial, hw, -⟩
    · exact .inr (.inl hw)
    · exact .inr (hself hj _ hw)
    · exact .inr (hself hj _ hw)
  · exact .inr (hw.mono (fun hd => hd) (hother hj).symm fun _ _ hn => hn)

/-- A device whose Detached comes next was announced. -/
theorem Sound.announced_of_willDetach {j : ℕ} (h : d.Sound) (ho : d.Orderly a)
    (hm : Move .own d a d' e) (harr : d.usb.arrival = none) (harr' : d'.usb.arrival = none)
    (hw : d'.WillDetach j) : d.Announced j := by
  cases hm with
  | usbConnected id info twin hu => cases harr'
  | usbRetain id info hu =>
    rw [hu] at harr
    cases harr
  | usbInsert id info hu =>
    rw [hu] at harr
    cases harr
  | usbDisconnected id info hu he =>
    refine announced_of_keepsCovers hw ho rfl fun hd => ?_
    cases hd
    exact h.announced_usb hu he
  | deviceNotFound => exact .inr hw
  | shutdownFails id info hu => exact .inr (hw.mono (fun hd => by cases hd) rfl fun _ _ hn => hn)
  | announceTwin id info twin hu =>
    refine .inr (hw.mono (fun hd => ?_) rfl fun _ _ hn => hn)
    rw [hu]
    exact hd
  | left id hu => exact .inr (hw.mono (fun hd => by cases hd) rfl fun _ _ hn => hn)
  | notice id o hu hr =>
    refine announced_of_keepsCovers hw (ho.2 o hr) rfl fun hd => ?_
    cases hd
    obtain ⟨device, he⟩ := Option.isSome_iff_exists.mp ho.1
    cases device with
    | usb info => exact h.announced_usb hu he
    | network mac serial =>
      -- a reader loop is one of a USB device
      have husb := ((h.reader j o hr).2 _ he).1
      cases husb
  | lost id o hu => exact .inr (hw.mono (fun hd => by cases hd) rfl fun _ _ hn => hn)
  | reopenFails id o hu => exact .inr (hw.mono (fun hd => by cases hd) rfl fun _ _ hn => hn)
  | reopen id info hu =>
    -- one more USB device can only cover network devices
    have hid := (h.gone id (by rw [hu]; rfl)).2
    refine .inr (hw.mono (fun hd => by cases hd) rfl fun serial _ hn => ?_)
    rw [← Bool.not_eq_true] at hn ⊢
    exact fun ht => hn ((Registry.hasUsb_insert hid).mpr (.inl ht))
  | reopened id hu => exact .inr (hw.mono (fun hd => by cases hd) rfl fun _ _ hn => hn)
  | alreadyAdded => exact .inr hw
  | serviceResolved => exact .inr hw
  | networkFails => exact .inr hw
  | networkInsert id mac serial ht =>
    have hid := h.get_eq_none (h.connecting id mac serial ht)
    refine .inr (hw.mono (fun hd => hd) rfl fun name _ hn => ?_)
    exact (Registry.hasUsb_insert_network mac serial hid).symm.trans hn
  | addCovered => exact .inr hw
  | addShown => exact .inr hw
  | networkAttached => exact .inr hw
  | takeNetwork _ id mac serial ha he =>
    refine h.announced_of_takeNetwork he (fun hs => ?_) hw
    rcases ha with rfl | rfl
    · exact ho hs
    · exact ho hs
  | removalCovered id serial ht hu =>
    refine announced_of_removing hw d.removing.get_remove_of_ne fun hj task hr => ?_
    rw [hj, d.removing.get_remove_self] at hr
    cases hr
  | removalShown id serial ht hu =>
    refine announced_of_removing hw (d.removing.get_insert_of_ne _) fun hj _ _ => ?_
    exact .inr (.inr ⟨serial, hj ▸ ht, hu⟩)
  | removalDetached id ht =>
    refine announced_of_removing hw d.removing.get_remove_of_ne fun hj task hr => ?_
    rw [hj, d.removing.get_remove_self] at hr
    cases hr

/-- A device that is shown comes to wait for no Attached. -/
theorem Sound.excuses_of_shown {j : ℕ} (h : d.Sound) (hm : Move .own d a d' e)
    (harr : d.usb.arrival = none) (harr' : d'.usb.arrival = none)
    (hs : d.devices.shown j = true) (hx : d'.Excuses j) : d.Excuses j := by
  cases hm with
  | usbConnected id info twin hu => cases harr'
  | usbRetain id info hu =>
    rw [hu] at harr
    cases harr
  | usbInsert id info hu =>
    rw [hu] at harr
    cases harr
  | usbDisconnected id info hu he =>
    refine hx.mono (fun hxu => ?_) rfl
    obtain ⟨mac, hget⟩ := hxu
    -- the twin was covered by the device that is unplugged
    have hold := ((d.devices.get_retain_eq_some_iff _ j _).mp hget).1
    have hcover : d.devices.hasUsb (Device.usb info).serialNumber = true :=
      Registry.hasUsb_eq_true_iff.mpr ⟨id, _, he, rfl, rfl⟩
    obtain ⟨f, hf, hcase⟩ := Registry.shown_eq_true_iff.mp hs
    rw [hold] at hf
    cases hf
    rcases hcase with hcase | hcase
    · cases hcase
    · exact absurd (hcase.symm.trans hcover) Bool.false_ne_true
  | deviceNotFound => exact hx
  | shutdownFails id info hu => exact hx.mono (fun hxu => hxu.elim) rfl
  | announceTwin id info twin hu => exact hx.mono (fun hxu => hxu.elim) rfl
  | left id hu => exact hx.mono (fun hxu => hxu.elim) rfl
  | notice id o hu hr => exact hx.mono (fun hxu => hxu.elim) rfl
  | lost id o hu => exact hx.mono (fun hxu => hxu.elim) rfl
  | reopenFails id o hu => exact hx.mono (fun hxu => hxu.elim) rfl
  | reopen id info hu =>
    refine hx.mono (fun hxu => ?_) rfl
    -- the device that comes back has no entry yet
    have hid : id = j := hxu
    subst hid
    rw [Registry.shown_of_get_eq_none (h.gone id (by rw [hu]; rfl)).2] at hs
    cases hs
  | reopened id hu => exact hx.mono (fun hxu => hxu.elim) rfl
  | alreadyAdded => exact hx
  | serviceResolved id mac serial hid =>
    rcases hx with hx | hx
    · exact .inl hx
    · right
      grind [KeyTable.get_insert]
  | networkFails id mac serial ht =>
    rcases hx with hx | hx
    · exact .inl hx
    · right
      grind [KeyTable.get_remove]
  | networkInsert id mac serial ht =>
    have hnone := h.get_eq_none (h.connecting id mac serial ht)
    -- the id of the new entry had none, so it was not shown
    have hj : j ≠ id := by
      rintro rfl
      rw [Registry.shown_of_get_eq_none hnone] at hs
      cases hs
    exact hx.mono (fun hxu => hxu.congr rfl (d.devices.get_insert_of_ne _ hj).symm)
      (d.adding.get_insert_of_ne _ hj).symm
  | addCovered id serial ht hu =>
    rcases hx with hx | hx
    · exact .inl hx
    · right
      grind [KeyTable.get_remove]
  | addShown id serial ht hu =>
    rcases hx with hx | hx
    · exact .inl hx
    · right
      grind [KeyTable.get_insert]
  | networkAttached id ht =>
    rcases hx with hx | hx
    · exact .inl hx
    · right
      grind [KeyTable.get_remove]
  | takeNetwork _ id mac serial ha he =>
    exact hx.mono (UsbExcuses.of_get rfl fun f hf =>
      ((d.devices.get_retain_eq_some_iff _ j f).mp hf).1) rfl
  | removalCovered id serial ht hu => exact hx
  | removalShown id serial ht hu => exact hx
  | removalDetached id ht => exact hx

/-- The Detached of a device is sent once. -/
theorem Sound.willDetach_of_detached {i : ℕ} (h : d.Sound)
    (hm : Move .own d a d' (some (.detached i))) (harr' : d'.usb.arrival = none) :
    d.WillDetach i ∧ ¬d'.WillDetach i := by
  have husb {usb : UsbTask} (hd : d.usb.detaching = some i) (hnone : usb.detaching = none) :
      d.WillDetach i ∧ ¬WillDetach { d with usb := usb } i := by
    have hremoving := (h.tasks_of_gone (UsbTask.gone_of_detaching hd)).2
    refine ⟨.inl hd, ?_⟩
    rintro (hw | hw | ⟨serial, hw, -⟩)
    · rw [hnone] at hw
      cases hw
    · rw [hremoving] at hw
      cases hw
    · rw [hremoving] at hw
      cases hw
  generalize he : some (DeviceEvent.detached i) = ev at hm
  cases hm with
  | usbConnected => cases harr'
  | announceTwin id info twin => cases twin <;> cases he
  | left id hu =>
    cases he
    exact husb (by rw [hu]; rfl) rfl
  | lost id o hu =>
    cases he
    exact husb (by rw [hu]; rfl) rfl
  | removalDetached id ht =>
    cases he
    refine ⟨.inr (.inl ht), ?_⟩
    have hnone := d.removing.get_remove_self i
    rintro (hw | hw | ⟨serial, hw, -⟩)
    · have hremoving := (h.tasks_of_gone (UsbTask.gone_of_detaching hw)).2
      rw [ht] at hremoving
      cases hremoving
    · rw [hnone] at hw
      cases hw
    · rw [hnone] at hw
      cases hw
  | _ => cases he

/-- The Attached of a device is sent once. -/
theorem Sound.excuses_of_attached {i : ℕ} (h : d.Sound) (ho : d.Orderly a)
    (hback : ∀ k, d.usb = .reopened k → (d.devices.get k).isSome = true)
    (hm : Move .own d a d' (some (.attached i))) : d.Excuses i ∧ ¬d'.Excuses i := by
  generalize he : some (DeviceEvent.attached i) = ev at hm
  cases hm with
  | usbConnected id info twin => cases twin <;> cases he
  | announceTwin id info twin hu htwin =>
    cases twin with
    | none => cases he
    | some n =>
      cases he
      have hfound := Registry.get_of_finds htwin
      refine ⟨.inl (by rwa [UsbExcuses, hu]), not_excuses (fun hx => hx) (ho i rfl)⟩
  | reopened id hu =>
    cases he
    obtain ⟨device, hget⟩ := Option.isSome_iff_exists.mp (hback i hu)
    have husb := (h.reopened i hu).2 device hget
    cases device with
    | usb info =>
      refine ⟨.inl ?_, not_excuses (fun hx => hx) (h.tasks_of_usb hget).1⟩
      rw [UsbExcuses, hu]
    | network mac serial => cases husb
  | networkAttached id ht =>
    cases he
    exact ⟨.inr (.inl ht), not_excuses ho.2 (d.adding.get_remove_self i)⟩
  | _ => cases he

section

variable {j : ℕ} (h : d.Sound) (hc : d.Clean a) (ho : d.Orderly a)
  (harr : d.usb.arrival = none) (harr' : d'.usb.arrival = none)
include h hc ho harr harr'

/-- A step without an event leaves what is announced. -/
theorem Sound.announced_silent (hstep : d.step a = some (d', none)) :
    d'.Announced j ↔ d.Announced j := by
  have hm := move_of_step hstep
  have hsilent : d.Silent d' := h.tells hc hm
  constructor
  · rintro (⟨hshown, hnot⟩ | hw)
    · rcases hsilent.excuse j hshown with ⟨hold, hx⟩ | hx | ⟨hne, -⟩
      · exact .inl ⟨hold, fun hd => hnot (hx hd)⟩
      · exact absurd hx hnot
      · exact absurd harr hne
    · exact h.announced_of_willDetach ho hm harr harr' hw
  · rintro (⟨hshown, hnot⟩ | hw)
    · rcases hsilent.keep j (.inl hshown) with hnew | hw | ⟨hne, -⟩
      · exact .inl ⟨hnew, fun hx => hnot (h.excuses_of_shown hm harr harr' hshown hx)⟩
      · exact .inr hw
      · exact absurd harr hne
    · rcases hsilent.keep j (.inr hw) with hnew | hw | ⟨hne, -⟩
      · -- no step puts a device back before its Detached
        obtain ⟨f, hf⟩ := Option.isSome_iff_exists.mp (Registry.isSome_of_shown hnew)
        rcases (h.vacant.get_step hstep j f).mp hf with hins | ⟨hget, -⟩
        · exact absurd (.inr hw) (h.not_due_of_inserts hins)
        · rw [h.get_of_willDetach hw] at hget
          cases hget
      · exact .inr hw
      · exact absurd harr hne

/-- A Detached is sent of a device that is announced, and of no other. -/
theorem Sound.announced_detached {i : ℕ} (hm : Move .own d a d' (some (.detached i))) :
    (j ≠ i → (d'.Announced j ↔ d.Announced j)) ∧ d.Announced i ∧ ¬d'.Announced i := by
  have hdet : d.Detaches i d' := h.tells hc hm
  refine ⟨fun hj => ⟨?_, ?_⟩, ?_, ?_⟩
  · rintro (⟨hshown, hnot⟩ | hw)
    · rw [hdet.devices] at hshown
      exact .inl ⟨hshown, fun hx => hnot (hdet.excuse j hshown hj hx)⟩
    · exact h.announced_of_willDetach ho hm harr harr' hw
  · rintro (⟨hshown, hnot⟩ | hw)
    · refine .inl ⟨by rwa [hdet.devices], fun hx => hnot ?_⟩
      exact h.excuses_of_shown hm harr harr' hshown hx
    · exact .inr (hdet.owed j hj hw)
  · exact .inr (h.willDetach_of_detached hm harr').1
  · have hw := h.willDetach_of_detached hm harr'
    rintro (⟨hshown, -⟩ | hw')
    · rw [hdet.devices, Registry.shown_of_get_eq_none (h.get_of_willDetach hw.1)] at hshown
      cases hshown
    · exact hw.2 hw'

/-- An Attached is sent of a device that is not announced. -/
theorem Sound.announced_attached {i : ℕ}
    (hback : ∀ k, d.usb = .reopened k → (d.devices.get k).isSome = true)
    (hm : Move .own d a d' (some (.attached i))) :
    (j ≠ i → (d'.Announced j ↔ d.Announced j)) ∧ ¬d.Announced i ∧ d'.Announced i := by
  have hatt : d.Attaches i d' := h.tells hc hm
  have hget : (d.devices.get i).isSome = true := by
    refine get_of_attached hback ?_ hm
    rintro id rfl
    exact ho.1
  have hx := h.excuses_of_attached ho hback hm
  refine ⟨fun hj => ⟨?_, ?_⟩, ?_, ?_⟩
  · rintro (⟨hshown, hnot⟩ | hw)
    · rw [hatt.devices] at hshown
      exact .inl ⟨hshown, fun hx => hnot (hatt.excuse j hshown hj hx)⟩
    · exact h.announced_of_willDetach ho hm harr harr' hw
  · rintro (⟨hshown, hnot⟩ | hw)
    · refine .inl ⟨by rwa [hatt.devices], fun hx => hnot ?_⟩
      exact h.excuses_of_shown hm harr harr' hshown hx
    · exact .inr (hatt.owed j hw)
  · rintro (⟨-, hnot⟩ | hw)
    · exact hnot hx.1
    · rw [h.get_of_willDetach hw] at hget
      cases hget
  · exact .inl ⟨by rw [hatt.devices]; exact hatt.shown hget, hx.2⟩

/-- The event of a step is in its turn. -/
theorem Sound.announced_step {b : Bool}
    (hback : ∀ k, d.usb = .reopened k → (d.devices.get k).isSome = true)
    (hstep : d.step a = some (d', e)) (hb : b = true ↔ d.Announced j) :
    ∃ b', StepSystem.after (turn j) b e.toList = some b' ∧ (b' = true ↔ d'.Announced j) := by
  have hm := move_of_step hstep
  cases e with
  | none => exact ⟨b, rfl, hb.trans (h.announced_silent hc ho harr harr' hstep).symm⟩
  | some ev =>
    by_cases hid : ev.id = j
    · cases ev with
      | attached i =>
        have hi : i = j := hid
        subst hi
        obtain ⟨-, hnot, hnew⟩ := h.announced_attached (j := i) hc ho harr harr' hback hm
        have hfalse : b = false := by
          rw [← Bool.not_eq_true]
          exact fun ht => hnot (hb.mp ht)
        exact ⟨true, by simp [hfalse, StepSystem.after, turn], by simpa using hnew⟩
      | detached i =>
        have hi : i = j := hid
        subst hi
        obtain ⟨-, hold, hnot⟩ := h.announced_detached (j := i) hc ho harr harr' hm
        have htrue : b = true := hb.mpr hold
        exact ⟨false, by simp [htrue, StepSystem.after, turn], by simpa using hnot⟩
    · refine ⟨b, by simp only [Option.toList_some, StepSystem.after, turn_of_ne hid,
        Option.bind_some], hb.trans ?_⟩
      cases ev with
      | attached i => exact ((h.announced_attached hc ho harr harr' hback hm).1 (Ne.symm hid)).symm
      | detached i => exact ((h.announced_detached hc ho harr harr' hm).1 (Ne.symm hid)).symm

end

end Daemon

end Rusbmux
