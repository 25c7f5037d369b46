import Rusbmux.Errors
import Rusbmux.NetworkEntries

/-! What a device id stands for, over all runs of the watchers: a client that was
told of a device connects to that device or to none. -/
namespace Rusbmux

/-- What the backend or mDNS knows a device by. The serial number of a USB device
may be read at one time and not at another. -/
inductive DeviceIdentity where
  | usb (opaqueId : UInt64)
  | network (macAddress serialNumber : String)
  deriving DecidableEq, Repr

def Device.identity : Device → DeviceIdentity
  | usb info => .usb info.opaqueId
  | network mac serial => .network mac serial

/-- The notice that is being handled, while the device's entry is gone. -/
def UsbTask.noticed : UsbTask → Option (ℕ × UInt64)
  | lost id o | reopening id o => some (id, o)
  | _ => none

namespace Daemon

/-- `connect` of src/handler/connect.rs, up to the device that it finds. -/
def connectTo (d : Daemon) (id : ℕ) : Except RusbmuxError Device :=
  match d.devices.get id with
  | some device => .ok device
  | none => .error (.deviceNotFound id)

/-- The id has been given out, and whatever still brings in an entry under it
brings in the same device. -/
structure Denotes (d : Daemon) (id : ℕ) (who : DeviceIdentity) : Prop where
  known : id ∈ d.ids
  entry : ∀ e, d.devices.get id = some e → e.identity = who
  reader : ∀ o, d.readers.get id = some o → .usb o = who
  noticed : ∀ o, d.usb.noticed = some (id, o) → .usb o = who

variable {d d' : Daemon} {a : Action} {ev : Option DeviceEvent} {id : ℕ} {who : DeviceIdentity}

theorem gone_of_noticed {u : UsbTask} {o : UInt64} (h : u.noticed = some (id, o)) :
    u.gone = some id := by
  cases u <;> cases h <;> rfl

/-- Only a device that is back, or one that has a new id, gets an entry. -/
theorem Denotes.of_inserts (hv : d.Vacant) (h : d.Denotes id who) {e : Device}
    (hins : d.inserts a = some (id, e)) (hstep : d.step a = some (d', ev)) : e.identity = who := by
  cases move_of_step hstep with
  | usbInsert k info hu =>
    simp only [inserts, hu, Option.some.injEq, Prod.mk.injEq] at hins
    obtain ⟨rfl, rfl⟩ := hins
    exact absurd h.known (hv.arrival k (by rw [hu]; rfl)).1
  | reopen k info hu =>
    simp only [inserts, hu, Option.some.injEq, Prod.mk.injEq] at hins
    obtain ⟨rfl, rfl⟩ := hins
    exact h.noticed info.opaqueId (by rw [hu]; rfl)
  | networkInsert k mac serial ht =>
    simp only [inserts, ht, Option.some.injEq, Prod.mk.injEq] at hins
    obtain ⟨rfl, rfl⟩ := hins
    exact absurd h.known (hv.connecting k mac serial ht)
  | takeNetwork _ k mac serial ha he => rcases ha with rfl | rfl <;> cases hins
  | _ => cases hins

theorem Denotes.step (hv : d.Vacant) (h : d.Denotes id who) (hstep : d.step a = some (d', ev)) :
    d'.Denotes id who := by
  have hentry (e : Device) (he : d'.devices.get id = some e) : e.identity = who := by
    rcases (hv.get_step hstep id e).mp he with hins | ⟨hkept, -, -⟩
    · exact h.of_inserts hv hins hstep
    · exact h.entry e hkept
  have hnone {p : Prop} {k : ℕ × UInt64} (hk : (none : Option (ℕ × UInt64)) = some k) : p := by
    cases hk
  cases move_of_step hstep with
  | usbConnected | usbRetain | usbDisconnected | shutdownFails | announceTwin | left | reopenFails
  | reopened =>
    exact ⟨h.known, hentry, h.reader, fun _ => hnone⟩
  | usbInsert k info hu =>
    -- the device that arrives has an id that stands for none yet
    have hne : id ≠ k := by
      rintro rfl
      exact (hv.arrival id (by rw [hu]; rfl)).1 h.known
    refine ⟨List.mem_cons_of_mem _ h.known, hentry, fun o ho => ?_, fun _ => hnone⟩
    rw [KeyTable.get_insert_of_ne _ _ hne] at ho
    exact h.reader o ho
  | notice k o hu ho =>
    refine ⟨h.known, hentry, fun o' ho' => ?_, fun o' hn => ?_⟩
    · rw [KeyTable.get_remove] at ho'
      split_ifs at ho'
      exact h.reader o' ho'
    · cases hn
      exact h.reader o ho
  | lost k o hu =>
    refine ⟨h.known, hentry, h.reader, fun o' hn => h.noticed o' ?_⟩
    rw [hu]
    exact hn
  | reopen k info hu =>
    refine ⟨h.known, hentry, fun o ho => ?_, fun _ => hnone⟩
    by_cases hk : id = k
    · subst hk
      rw [KeyTable.get_insert_self] at ho
      cases ho
      -- a device comes back under the opaque id of the notice
      exact h.noticed info.opaqueId (by rw [hu]; rfl)
    · rw [KeyTable.get_insert_of_ne _ _ hk] at ho
      exact h.reader o ho
  | networkInsert => exact ⟨List.mem_cons_of_mem _ h.known, hentry, h.reader, h.noticed⟩
  | deviceNotFound | alreadyAdded | serviceResolved | networkFails | addCovered | addShown
  | networkAttached | takeNetwork | removalCovered | removalShown | removalDetached =>
    exact ⟨h.known, hentry, h.reader, h.noticed⟩

/-- Every id that has been given out stands for one device. -/
structure IdsSettled (d : Daemon) : Prop where
  vacant : d.Vacant
  denotes : ∀ id ∈ d.ids, ∃ who, d.Denotes id who

theorem idsSettled_start : start.IdsSettled := ⟨vacant_start, fun id hid => by cases hid⟩

/-- A new id stands for the device whose entry it comes with. -/
theorem denotes_usbInsert (d : Daemon) (id : ℕ) (info : DeviceInfo) :
    Denotes { d with
      devices := d.devices.insert id (.usb info)
      ids := id :: d.ids
      readers := d.readers.insert id info.opaqueId
      usb := .idle } id (.usb info.opaqueId) := by
  refine ⟨List.mem_cons_self, fun e he => ?_, fun o ho => ?_, fun o hn => by cases hn⟩
  · rw [KeyTable.get_insert_self] at he
    cases he
    rfl
  · rw [KeyTable.get_insert_self] at ho
    cases ho
    rfl

theorem denotes_networkInsert (hv : d.Vacant) {mac serial : String}
    (ht : d.adding.get id = some (.connecting mac serial)) :
    Denotes { d with
      devices := d.devices.insert id (.network mac serial)
      ids := id :: d.ids
      adding := d.adding.insert id (.inserted serial) } id (.network mac serial) := by
  have hnew : id ∉ d.ids := hv.connecting id mac serial ht
  refine ⟨List.mem_cons_self, fun e he => ?_, fun o ho => ?_, fun o hn => ?_⟩
  · rw [KeyTable.get_insert_self] at he
    cases he
    rfl
  · exact absurd (hv.reader id o ho).1 hnew
  · exact absurd (hv.gone id (gone_of_noticed hn)).1 hnew

theorem IdsSettled.step (h : d.IdsSettled) (hstep : d.step a = some (d', ev)) :
    d'.IdsSettled := by
  refine ⟨h.vacant.step hstep, fun id hid => ?_⟩
  have hold (hk : id ∈ d.ids) : ∃ who, d'.Denotes id who := by
    obtain ⟨who, hwho⟩ := h.denotes id hk
    exact ⟨who, hwho.step h.vacant hstep⟩
  cases move_of_step hstep with
  | usbInsert k info hu =>
    rcases List.mem_cons.mp hid with rfl | hk
    · exact ⟨_, denotes_usbInsert d id info⟩
    · exact hold hk
  | networkInsert k mac serial ht =>
    rcases List.mem_cons.mp hid with rfl | hk
    · exact ⟨_, denotes_networkInsert h.vacant ht⟩
    · exact hold hk
  | _ => exact hold hid

theorem step_of_next (h : d.next a = some d') : ∃ ev, d.step a = some (d', ev) := by
  obtain ⟨⟨d'', ev⟩, hstep, rfl⟩ := Option.map_eq_some_iff.mp h
  exact ⟨ev, hstep⟩

theorem idsSettled_after {as : List Action} (h : StepSystem.after next start as = some d) :
    d.IdsSettled :=
  StepSystem.after_induction (fun _ _ _ hd hst => by
    obtain ⟨ev, hstep⟩ := step_of_next hst
    exact hd.step hstep) idsSettled_start h

theorem Denotes.after (hd : d.IdsSettled) (h : d.Denotes id who) {as : List Action}
    (ht : StepSystem.after next d as = some d') : d'.Denotes id who := by
  let Inv (d : Daemon) : Prop := d.Vacant ∧ d.Denotes id who
  have hstep (s : Daemon) (a : Action) (t : Daemon) (hs : Inv s) (hst : s.next a = some t) :
      Inv t := by
    obtain ⟨ev, hev⟩ := step_of_next hst
    exact ⟨hs.1.step hev, hs.2.step hs.1 hev⟩
  have hinv : Inv d' := StepSystem.after_induction hstep ⟨hd.vacant, h⟩ ht
  exact hinv.2

/-- From any reachable state on, whatever the watchers do meanwhile, a connect by
the id of a device that was in the map finds that device or no device. -/
theorem connect_finds_same {as bs : List Action} {s t : Daemon}
    (hs : StepSystem.after next start as = some s) (ht : StepSystem.after next s bs = some t)
    {device : Device} (hdevice : s.devices.get id = some device) :
    t.connectTo id = .error (.deviceNotFound id) ∨
      ∃ found, t.connectTo id = .ok found ∧ found.identity = device.identity := by
  have hsettled := idsSettled_after hs
  obtain ⟨who, hwho⟩ := hsettled.denotes id (hsettled.vacant.known id device hdevice)
  have hlater := hwho.after hsettled ht
  unfold connectTo
  cases hfound : t.devices.get id with
  | none => exact .inl rfl
  | some found =>
    refine .inr ⟨found, rfl, ?_⟩
    rw [hlater.entry found hfound, hwho.entry device hdevice]

/-- A USB device that was plugged in. -/
def pluggedIn (info : DeviceInfo) : Daemon where
  devices := KeyTable.empty.insert 1 (.usb info)
  ids := [1]
  readers := KeyTable.empty.insert 1 info.opaqueId
  usb := .idle
  adding := .empty
  removing := .empty

/-- Its notice comes, and it is back under its id while its serial number cannot
be read. -/
theorem connect_finds_same_reopened :
    (pluggedIn ⟨APPLE_VID, none, 5⟩).connectTo 1 = .error (.deviceNotFound 1) ∨
      ∃ found, (pluggedIn ⟨APPLE_VID, none, 5⟩).connectTo 1 = .ok found ∧
        found.identity = .usb 5 := by
  have hplugged : StepSystem.after next start
      [.usbConnected 1 ⟨APPLE_VID, some "A", 5⟩ none, .usbRetain, .usbInsert] =
        some (pluggedIn ⟨APPLE_VID, some "A", 5⟩) := rfl
  have hback : StepSystem.after next (pluggedIn ⟨APPLE_VID, some "A", 5⟩)
      [.notice 1, .sendDetached, .reopen ⟨APPLE_VID, none, 5⟩, .sendAttached] =
        some (pluggedIn ⟨APPLE_VID, none, 5⟩) := rfl
  have hdevice : (pluggedIn ⟨APPLE_VID, some "A", 5⟩).devices.get 1 =
      some (.usb ⟨APPLE_VID, some "A", 5⟩) := rfl
  exact connect_finds_same hplugged hback hdevice

end Daemon

end Rusbmux
