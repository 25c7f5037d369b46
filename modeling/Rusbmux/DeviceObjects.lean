import Rusbmux.WatchersSound

/-! The devices that `CONNECTED_DEVICES` holds or has held, with their tokens
and what keeps them from being dropped. -/
namespace Rusbmux

/-- A device as an object. `listed` says that the map holds it; `reader` and
`writer` that the tasks of a USB device's loops do. A network device has none. -/
structure DeviceObject where
  id : ℕ
  device : Device
  listed : Bool
  cancelled : Bool
  reader : Bool
  writer : Bool
  deriving DecidableEq

namespace DeviceObject

/-- An object that is put into the map. -/
def new (id : ℕ) (device : Device) : DeviceObject :=
  ⟨id, device, true, false, device.isUsb, device.isUsb⟩

/-- `shutdown`, which begins with the token. -/
def shutdown (o : DeviceObject) : DeviceObject := { o with cancelled := true }

/-- `Drop`, when nothing holds the object: it is shut down. -/
def dropLoose (o : DeviceObject) : DeviceObject :=
  if !o.listed && !o.reader && !o.writer then o.shutdown else o

/-- The map lets go of the object. -/
def release (o : DeviceObject) : DeviceObject := { o with listed := false }.dropLoose

/-- The task of the reader loop ends, after an IO error or with the token. -/
def endReader (o : DeviceObject) : DeviceObject := { o with reader := false }.dropLoose

/-- The task of the writer loop ends. Its channel stays open as long as it runs,
so only the token ends it. -/
def endWriter (o : DeviceObject) : DeviceObject :=
  if o.cancelled then { o with writer := false }.dropLoose else o

end DeviceObject

namespace Daemon

/-- The device that a step is about to shut down and to remove. -/
def shutsDown (id : ℕ) : Action → Bool
  | .usbDisconnected i | .serviceRemoved i _ | .heartbeatFails i => i == id
  | _ => false

variable (d : Daemon)

/-- What the two `retain` calls throw out of the map. -/
def clears (device : Device) : Action → Bool
  | .usbRetain => match d.usb with
    | .arrived _ info => device.serialNumber == (Device.usb info).serialNumber
    | _ => false
  | .notice id => (d.readers.get id).any fun opaqueId => device.opaqueId == opaqueId
  | _ => false

/-- The entry that a step inserts. -/
def inserts : Action → Option (ℕ × Device)
  | .usbInsert => match d.usb with
    | .retained id info => some (id, .usb info)
    | _ => none
  | .reopen info => match d.usb with
    | .reopening id _ => some (id, .usb info)
    | _ => none
  | .networkInsert id => match d.adding.get id with
    | some (.connecting mac serial) => some (id, .network mac serial)
    | _ => none
  | _ => none

/-- What becomes of an object in the map: it is shut down and removed, or it is
dropped by a `retain` or by an insert over its key. -/
def settle (a : Action) (o : DeviceObject) : DeviceObject :=
  if !o.listed then o
  else if shutsDown o.id a then o.shutdown.release
  else if d.clears o.device a || (d.inserts a).any fun e => e.1 == o.id then o.release
  else o

end Daemon

/-- The daemon with every object that was ever in the map. -/
structure DeviceObjects where
  daemon : Daemon
  objects : List DeviceObject

namespace DeviceObjects

inductive Action where
  | daemon (a : Daemon.Action)
  /-- The reader loop of the `n`th object ends. -/
  | readerEnds (n : ℕ)
  | writerEnds (n : ℕ)
  /-- `cleanup` comes to an object in the map. -/
  | cleanup (n : ℕ)

def step (s : DeviceObjects) : Action → Option DeviceObjects
  | .daemon a => (s.daemon.step a).map fun r =>
    ⟨r.1, ((s.daemon.inserts a).map fun e => DeviceObject.new e.1 e.2).toList ++
      s.objects.map (s.daemon.settle a)⟩
  | .readerEnds n => some { s with objects := s.objects.modify n .endReader }
  | .writerEnds n => some { s with objects := s.objects.modify n .endWriter }
  | .cleanup n => some { s with
      objects := s.objects.modify n fun o => if o.listed then o.shutdown else o }

def start : DeviceObjects := ⟨.start, []⟩

/-- The objects that the map no longer holds are shut down. -/
def ShutDown (s : DeviceObjects) : Prop :=
  ∀ o ∈ s.objects, o.listed = false → o.cancelled = true

/-- Neither `retain` throws a USB device out that is not shut down. -/
def SparesUsb (s : DeviceObjects) : Action → Prop
  | .daemon a => ∀ o ∈ s.objects, o.listed = true → o.device.isUsb = true →
      s.daemon.clears o.device a = true → o.cancelled = true
  | _ => True

end DeviceObjects

namespace Daemon

/-- An id that is about to be inserted has no entry. -/
structure Vacant (d : Daemon) : Prop where
  known : ∀ id e, d.devices.get id = some e → id ∈ d.ids
  arrival : ∀ id, d.usb.arrival = some id → id ∉ d.ids ∧ d.adding.get id = none
  gone : ∀ id, d.usb.gone = some id → id ∈ d.ids ∧ d.devices.get id = none
  connecting : ∀ id mac serial, d.adding.get id = some (.connecting mac serial) → id ∉ d.ids
  reader : ∀ id o, d.readers.get id = some o → id ∈ d.ids ∧
    ∀ e, d.devices.get id = some e → e.opaqueId = o

theorem vacant_start : start.Vacant := by
  constructor <;> simp [start, UsbTask.arrival, UsbTask.gone]

section

variable {reads : SerialReads} {d d' : Daemon} {id : ℕ}

theorem Vacant.get_eq_none (h : d.Vacant) (hid : id ∉ d.ids) : d.devices.get id = none :=
  Option.eq_none_iff_forall_ne_some.mpr fun e he => hid (h.known id e he)

/-- Entries and readers go, and the USB task takes its step. -/
theorem Vacant.shrink (h : d.Vacant) (devices : Registry) (readers : KeyTable ℕ UInt64)
    (usb : UsbTask) (hdevices : ∀ k e, devices.get k = some e → d.devices.get k = some e)
    (hreaders : ∀ k o, readers.get k = some o → d.readers.get k = some o)
    (harrival : ∀ k, usb.arrival = some k → k ∉ d.ids ∧ d.adding.get k = none)
    (hgone : ∀ k, usb.gone = some k → k ∈ d.ids ∧ devices.get k = none) :
    Vacant { d with devices := devices, readers := readers, usb := usb } where
  known k e he := h.known k e (hdevices k e he)
  arrival := harrival
  gone := hgone
  connecting := h.connecting
  reader k o ho :=
    ⟨(h.reader k o (hreaders k o ho)).1, fun e he =>
      (h.reader k o (hreaders k o ho)).2 e (hdevices k e he)⟩

/-- The USB task takes a step that changes nothing else. -/
theorem Vacant.setUsb (h : d.Vacant) (usb : UsbTask)
    (harrival : ∀ k, usb.arrival = some k → k ∉ d.ids ∧ d.adding.get k = none)
    (hgone : ∀ k, usb.gone = some k → d.usb.gone = some k) : Vacant { d with usb := usb } :=
  h.shrink d.devices d.readers usb (fun _ _ h => h) (fun _ _ h => h) harrival
    fun k hk => h.gone k (hgone k hk)

/-- A task that has its connection is set or ends. -/
theorem Vacant.setAdding (h : d.Vacant) (adding : KeyTable ℕ AddTask)
    (hnone : ∀ k, d.adding.get k = none → adding.get k = none)
    (hconnecting : ∀ k mac serial, adding.get k = some (.connecting mac serial) →
      d.adding.get k = some (.connecting mac serial)) : Vacant { d with adding := adding } where
  known := h.known
  arrival k hk := ⟨(h.arrival k hk).1, hnone k (h.arrival k hk).2⟩
  gone := h.gone
  connecting k mac serial hk := h.connecting k mac serial (hconnecting k mac serial hk)
  reader := h.reader

theorem Vacant.removeAdding (h : d.Vacant) (id : ℕ) :
    Vacant { d with adding := d.adding.remove id } := by
  refine h.setAdding _ (fun k hk => ?_) fun k mac serial hk => ?_
  · rw [KeyTable.get_remove, hk, ite_self]
  · rw [KeyTable.get_remove] at hk
    split_ifs at hk
    exact hk

theorem Vacant.usbInsert (h : d.Vacant) (info : DeviceInfo) (hu : d.usb.arrival = some id) :
    Vacant { d with
      devices := d.devices.insert id (.usb info)
      ids := id :: d.ids
      readers := d.readers.insert id info.opaqueId
      usb := .idle } where
  known k e he := by
    rw [KeyTable.get_insert] at he
    split_ifs at he with hk
    · exact hk ▸ List.mem_cons_self
    · exact List.mem_cons_of_mem _ (h.known k e he)
  arrival k hk := by cases hk
  gone k hk := by cases hk
  connecting k mac serial hk := by
    refine List.not_mem_cons_of_ne_of_not_mem ?_ (h.connecting k mac serial hk)
    rintro rfl
    rw [(h.arrival k hu).2] at hk
    cases hk
  reader k o ho := by
    rw [KeyTable.get_insert] at ho
    split_ifs at ho with hk
    · subst hk
      cases ho
      refine ⟨List.mem_cons_self, fun e he => ?_⟩
      rw [KeyTable.get_insert_self] at he
      cases he
      rfl
    · refine ⟨List.mem_cons_of_mem _ (h.reader k o ho).1, fun e he => ?_⟩
      rw [KeyTable.get_insert_of_ne _ _ hk] at he
      exact (h.reader k o ho).2 e he

theorem Vacant.reopen (h : d.Vacant) (info : DeviceInfo) (hu : d.usb.gone = some id) :
    Vacant { d with
      devices := d.devices.insert id (.usb info)
      readers := d.readers.insert id info.opaqueId
      usb := .reopened id } where
  known k e he := by
    rw [KeyTable.get_insert] at he
    split_ifs at he with hk
    · exact hk ▸ (h.gone id hu).1
    · exact h.known k e he
  arrival k hk := by cases hk
  gone k hk := by cases hk
  connecting := h.connecting
  reader k o ho := by
    rw [KeyTable.get_insert] at ho
    split_ifs at ho with hk
    · subst hk
      cases ho
      refine ⟨(h.gone k hu).1, fun e he => ?_⟩
      rw [KeyTable.get_insert_self] at he
      cases he
      rfl
    · refine ⟨(h.reader k o ho).1, fun e he => ?_⟩
      rw [KeyTable.get_insert_of_ne _ _ hk] at he
      exact (h.reader k o ho).2 e he

theorem Vacant.networkInsert (h : d.Vacant) {mac serial : String}
    (ht : d.adding.get id = some (.connecting mac serial)) :
    Vacant { d with
      devices := d.devices.insert id (.network mac serial)
      ids := id :: d.ids
      adding := d.adding.insert id (.inserted serial) } := by
  have hid := h.connecting id mac serial ht
  have hne {k : ℕ} (hk : k ∈ d.ids) : k ≠ id := fun heq => hid (heq ▸ hk)
  constructor
  case known =>
    intro k e he
    rw [KeyTable.get_insert] at he
    split_ifs at he with hk
    · exact hk ▸ List.mem_cons_self
    · exact List.mem_cons_of_mem _ (h.known k e he)
  case arrival =>
    intro k hk
    have hka : k ≠ id := by
      rintro rfl
      rw [(h.arrival k hk).2] at ht
      cases ht
    exact ⟨List.not_mem_cons_of_ne_of_not_mem hka (h.arrival k hk).1,
      (KeyTable.get_insert_of_ne _ _ hka).trans (h.arrival k hk).2⟩
  case gone =>
    intro k hk
    have hids := (h.gone k hk).1
    exact ⟨List.mem_cons_of_mem _ hids,
      (KeyTable.get_insert_of_ne _ _ (hne hids)).trans (h.gone k hk).2⟩
  case connecting =>
    intro k m name hk
    rw [KeyTable.get_insert] at hk
    split_ifs at hk with hkid
    · cases hk
    · exact List.not_mem_cons_of_ne_of_not_mem hkid (h.connecting k m name hk)
  case reader =>
    intro k o ho
    have hids := (h.reader k o ho).1
    refine ⟨List.mem_cons_of_mem _ hids, fun e he => ?_⟩
    rw [KeyTable.get_insert_of_ne _ _ (hne hids)] at he
    exact (h.reader k o ho).2 e he

theorem Vacant.serviceResolved (h : d.Vacant) (mac serial : String) (hid : d.isNew id = true) :
    Vacant { d with adding := d.adding.insert id (.connecting mac serial) } := by
  obtain ⟨hids, -, harrival⟩ := isNew_eq_true_iff.mp hid
  refine ⟨h.known, fun k hk => ?_, h.gone, fun k m name hk => ?_, h.reader⟩
  · have hne : k ≠ id := fun heq => harrival (heq ▸ hk)
    exact ⟨(h.arrival k hk).1, (KeyTable.get_insert_of_ne _ _ hne).trans (h.arrival k hk).2⟩
  · rw [KeyTable.get_insert] at hk
    split_ifs at hk with hkid
    · exact hkid ▸ hids
    · exact h.connecting k m name hk

theorem Vacant.step {a : Action} {e : Option DeviceEvent} (h : d.Vacant)
    (hstep : d.stepRead reads a = some (d', e)) : d'.Vacant := by
  have hnone (k : ℕ) (hk : (none : Option ℕ) = some k) {p : Prop} : p := by cases hk
  cases move_of_stepRead hstep with
  | usbConnected id info twin hu hid htwin =>
    obtain ⟨hids, hadding, -⟩ := isNew_eq_true_iff.mp hid
    refine h.setUsb _ (fun k hk => ?_) fun k hk => hnone k hk
    cases hk
    exact ⟨hids, hadding⟩
  | usbRetain id info hu =>
    refine h.shrink _ _ _ (fun k e he => ((KeyTable.get_retain_eq_some_iff _ _ k e).mp he).1)
      (fun _ _ ho => ho) (fun k hk => h.arrival k ?_) fun k hk => hnone k hk
    rwa [hu]
  | usbInsert id info hu => exact h.usbInsert info (by rw [hu]; rfl)
  | usbDisconnected id info hu he =>
    refine h.shrink _ _ _ (fun k e he => ?_) (fun _ _ ho => ho) (fun k hk => hnone k hk)
      fun k hk => ?_
    · rw [KeyTable.get_remove] at he
      split_ifs at he
      exact he
    · cases hk
      exact ⟨h.known id _ he, KeyTable.get_remove_self _ id⟩
  | deviceNotFound id hu he => exact h
  | shutdownFails id info hu => exact h.setUsb _ (fun k hk => hnone k hk) fun k hk => hnone k hk
  | announceTwin id info twin hu htwin =>
    refine h.setUsb _ (fun k hk => hnone k hk) fun k hk => ?_
    rwa [hu]
  | left id hu => exact h.setUsb _ (fun k hk => hnone k hk) fun k hk => hnone k hk
  | notice id o hu ho =>
    refine h.shrink _ _ _ (fun k e he => ((KeyTable.get_retain_eq_some_iff _ _ k e).mp he).1)
      (fun k p hp => ?_) (fun k hk => hnone k hk) fun k hk => ?_
    · rw [KeyTable.get_remove] at hp
      split_ifs at hp
      exact hp
    · cases hk
      refine ⟨(h.reader id o ho).1, Option.eq_none_iff_forall_ne_some.mpr fun e he => ?_⟩
      -- the entry of the device that is gone has its opaque id
      obtain ⟨hget, hkept⟩ := (KeyTable.get_retain_eq_some_iff _ _ id e).mp he
      rw [(h.reader id o ho).2 e hget, bne_self_eq_false] at hkept
      cases hkept
  | lost id o hu =>
    refine h.setUsb _ (fun k hk => hnone k hk) fun k hk => ?_
    rwa [hu]
  | reopenFails id o hu => exact h.setUsb _ (fun k hk => hnone k hk) fun k hk => hnone k hk
  | reopen id info hu => exact h.reopen info (by rw [hu]; rfl)
  | reopened id hu => exact h.setUsb _ (fun k hk => hnone k hk) fun k hk => hnone k hk
  | alreadyAdded id mac serial => exact h
  | serviceResolved id mac serial hid => exact h.serviceResolved mac serial hid
  | networkFails id mac serial ht => exact h.removeAdding id
  | networkInsert id mac serial ht => exact h.networkInsert ht
  | addCovered id serial ht hu => exact h.removeAdding id
  | addShown id serial ht hu =>
    refine h.setAdding _ (fun k hk => ?_) fun k mac name hk => ?_
    · -- the task of the id has connected before
      have hne : k ≠ id := by
        rintro rfl
        rw [ht] at hk
        cases hk
      rw [KeyTable.get_insert_of_ne _ _ hne, hk]
    · rw [KeyTable.get_insert] at hk
      split_ifs at hk
      · cases hk
      · exact hk
  | networkAttached id ht => exact h.removeAdding id
  | takeNetwork _ id mac serial ha he =>
    have hshrunk := h.shrink (d.devices.remove id) d.readers d.usb (fun k e he => by
      rw [KeyTable.get_remove] at he
      split_ifs at he
      exact he) (fun _ _ ho => ho) h.arrival fun k hk => ⟨(h.gone k hk).1, by
        rw [KeyTable.get_remove, (h.gone k hk).2, ite_self]⟩
    exact ⟨hshrunk.known, hshrunk.arrival, hshrunk.gone, hshrunk.connecting, hshrunk.reader⟩
  | removalCovered id serial ht hu =>
    exact ⟨h.known, h.arrival, h.gone, h.connecting, h.reader⟩
  | removalShown id serial ht hu =>
    exact ⟨h.known, h.arrival, h.gone, h.connecting, h.reader⟩
  | removalDetached id ht => exact ⟨h.known, h.arrival, h.gone, h.connecting, h.reader⟩

/-- No insert replaces an entry. -/
theorem Vacant.get_inserts {a : Action} {entry : ℕ × Device} (h : d.Vacant)
    (ha : d.inserts a = some entry) : d.devices.get entry.1 = none := by
  unfold inserts at ha
  repeat' split at ha
  all_goals cases ha
  next hu => exact h.get_eq_none (h.arrival _ (by rw [hu]; rfl)).1
  next hu => exact (h.gone _ (by rw [hu]; rfl)).2
  next ht => exact h.get_eq_none (h.connecting _ _ _ ht)

theorem get_insert_iff {devices : Registry} {e' : Device} (hid : devices.get id = none) (k : ℕ)
    (e : Device) :
    (devices.insert id e').get k = some e ↔ id = k ∧ e' = e ∨ devices.get k = some e := by
  rw [KeyTable.get_insert]
  by_cases hk : k = id
  · subst hk
    simp [hid]
  · have hne : id ≠ k := fun h => hk h.symm
    simp [hk, hne]

theorem get_remove_iff (devices : Registry) (id k : ℕ) (e : Device) :
    (devices.remove id).get k = some e ↔ devices.get k = some e ∧ id ≠ k := by
  rw [KeyTable.get_remove]
  by_cases hk : k = id
  · simp [hk]
  · have hne : id ≠ k := fun h => hk h.symm
    simp [hk, hne]

/-- An entry after a step is the one that it inserts, or it was there before,
whatever the searches read. -/
theorem inserts_or_get_of_step {a : Action} {ev : Option DeviceEvent}
    (hstep : d.stepRead reads a = some (d', ev)) {k : ℕ} {e : Device}
    (he : d'.devices.get k = some e) :
    d.inserts a = some (k, e) ∨ d.devices.get k = some e := by
  have hinsert {id : ℕ} {e' : Device} (hins : d.inserts a = some (id, e'))
      (hget : (d.devices.insert id e').get k = some e) :
      d.inserts a = some (k, e) ∨ d.devices.get k = some e := by
    rw [KeyTable.get_insert] at hget
    split_ifs at hget with hk
    · cases hget
      exact .inl (hk ▸ hins)
    · exact .inr hget
  cases move_of_stepRead hstep with
  | usbInsert id info hu => exact hinsert (by simp only [inserts, hu]) he
  | reopen id info hu => exact hinsert (by simp only [inserts, hu]) he
  | networkInsert id mac serial ht => exact hinsert (by simp only [inserts, ht]) he
  | usbRetain | notice => exact .inr ((KeyTable.get_retain_eq_some_iff _ _ k e).mp he).1
  | usbDisconnected | takeNetwork => exact .inr ((get_remove_iff _ _ k e).mp he).1
  | _ => exact .inr he

/-- The entries after a step: those it inserts, and those it does not take out. -/
theorem Vacant.get_step {a : Action} {ev : Option DeviceEvent} (h : d.Vacant)
    (hstep : d.step a = some (d', ev)) (k : ℕ) (e : Device) :
    d'.devices.get k = some e ↔ d.inserts a = some (k, e) ∨
      d.devices.get k = some e ∧ shutsDown k a = false ∧ d.clears e a = false := by
  cases move_of_step hstep with
  | usbRetain id info hu =>
    simp [inserts, shutsDown, clears, hu, KeyTable.get_retain_eq_some_iff]
  | usbInsert id info hu =>
    have hins : d.inserts .usbInsert = some (id, .usb info) := by simp only [inserts, hu]
    simp [hins, shutsDown, clears, get_insert_iff (h.get_inserts hins)]
  | reopen id info hu =>
    have hins : d.inserts (.reopen info) = some (id, .usb info) := by simp only [inserts, hu]
    simp [hins, shutsDown, clears, get_insert_iff (h.get_inserts hins)]
  | networkInsert id mac serial ht =>
    have hins : d.inserts (.networkInsert id) = some (id, .network mac serial) := by
      simp only [inserts, ht]
    simp [hins, shutsDown, clears, get_insert_iff (h.get_inserts hins)]
  | usbDisconnected id info hu he => simp [inserts, shutsDown, clears, get_remove_iff]
  | deviceNotFound id hu he =>
    have hne (hk : d.devices.get k = some e) : id ≠ k := by
      rintro rfl
      rw [he] at hk
      cases hk
    simpa [inserts, shutsDown, clears] using hne
  | notice id o hu ho =>
    simp [inserts, shutsDown, clears, ho, KeyTable.get_retain_eq_some_iff]
  | takeNetwork _ id mac serial ha he =>
    rcases ha with rfl | rfl <;>
      simp [inserts, shutsDown, clears, takeNetwork, get_remove_iff]
  | _ => simp [inserts, shutsDown, clears]

end

end Daemon

namespace DeviceObject

variable {o : DeviceObject}

theorem dropLoose_cases (o : DeviceObject) : o.dropLoose = o ∨ o.dropLoose = o.shutdown := by
  unfold dropLoose
  split_ifs
  · exact .inr rfl
  · exact .inl rfl

theorem release_fields (o : DeviceObject) :
    o.release.id = o.id ∧ o.release.device = o.device ∧ o.release.listed = false := by
  unfold release dropLoose
  split_ifs <;> exact ⟨rfl, rfl, rfl⟩

/-- What holds an object: a network device has no loops, and the writer loop of a
USB device ends with its token only. -/
structure Held (o : DeviceObject) : Prop where
  network : o.device.isUsb = false → o.reader = false ∧ o.writer = false
  writer : o.device.isUsb = true → o.writer = false → o.cancelled = true

theorem held_new (id : ℕ) (device : Device) : (new id device).Held where
  network h := ⟨h, h⟩
  writer h hw := by
    have hw : device.isUsb = false := hw
    rw [show device.isUsb = true from h] at hw
    cases hw

theorem Held.shutdown (h : o.Held) : o.shutdown.Held := ⟨h.network, fun _ _ => rfl⟩

theorem Held.dropLoose (h : o.Held) : o.dropLoose.Held := by
  rcases dropLoose_cases o with hd | hd <;> rw [hd]
  · exact h
  · exact h.shutdown

theorem Held.release (h : o.Held) : o.release.Held :=
  Held.dropLoose ⟨h.network, h.writer⟩

theorem Held.endReader (h : o.Held) : o.endReader.Held :=
  Held.dropLoose ⟨fun hu => ⟨rfl, (h.network hu).2⟩, h.writer⟩

theorem Held.endWriter (h : o.Held) : o.endWriter.Held := by
  unfold DeviceObject.endWriter
  split_ifs with hc
  · exact Held.dropLoose ⟨fun hu => ⟨(h.network hu).1, rfl⟩, fun _ _ => hc⟩
  · exact h

/-- An object that the map lets go of is dropped if it is a network device; the
writer loop of a USB device keeps it. -/
theorem Held.release_cancelled (h : o.Held) :
    o.release.cancelled = true ↔ o.cancelled = true ∨ o.device.isUsb = false := by
  unfold DeviceObject.release DeviceObject.dropLoose
  cases hu : o.device.isUsb with
  | false =>
    obtain ⟨hr, hw⟩ := h.network hu
    simp [hr, hw, DeviceObject.shutdown]
  | true =>
    cases hw : o.writer with
    | true => simp
    | false => simp [h.writer hu hw, DeviceObject.shutdown]

end DeviceObject

namespace DeviceObjects

/-- The objects that are listed are those of the entries. -/
def Mirrors (s : DeviceObjects) : Prop :=
  ∀ id e, s.daemon.devices.get id = some e ↔
    ∃ o ∈ s.objects, o.listed = true ∧ o.id = id ∧ o.device = e

structure Inv (s : DeviceObjects) : Prop where
  vacant : s.daemon.Vacant
  mirrors : s.Mirrors
  held : ∀ o ∈ s.objects, o.Held
  shutDown : s.ShutDown

theorem inv_start : start.Inv where
  vacant := Daemon.vacant_start
  mirrors id e := by simp [start, Daemon.start]
  held o ho := by cases ho
  shutDown o ho := by cases ho

section

variable {s t : DeviceObjects} {d' : Daemon} {a : Daemon.Action} {ev : Option DeviceEvent}
  {o : DeviceObject}

theorem mem_of_mem_modify {objects : List DeviceObject} {n : ℕ}
    {f : DeviceObject → DeviceObject} (h : o ∈ objects.modify n f) :
    ∃ former ∈ objects, o = former ∨ o = f former := by
  obtain ⟨k, hk⟩ := List.mem_iff_getElem?.mp h
  rw [List.getElem?_modify] at hk
  obtain ⟨former, hformer, rfl⟩ := Option.map_eq_some_iff.mp hk
  refine ⟨former, List.mem_of_getElem? hformer, ?_⟩
  split_ifs
  · exact .inr rfl
  · exact .inl rfl

theorem mem_modify {objects : List DeviceObject} (n : ℕ) (f : DeviceObject → DeviceObject)
    (h : o ∈ objects) : o ∈ objects.modify n f ∨ f o ∈ objects.modify n f := by
  obtain ⟨k, hk⟩ := List.mem_iff_getElem?.mp h
  have hmodify := List.getElem?_modify f n objects k
  rw [hk] at hmodify
  by_cases hkn : n = k
  · simp only [hkn, if_true] at hmodify ⊢
    exact .inr (List.mem_of_getElem? hmodify)
  · simp only [hkn, if_false] at hmodify ⊢
    exact .inl (List.mem_of_getElem? hmodify)

/-- An object that changes in place, and stays in the map or out of it. -/
theorem Inv.modify (hs : s.Inv) (n : ℕ) (f : DeviceObject → DeviceObject)
    (hfields : ∀ o, (f o).id = o.id ∧ (f o).device = o.device ∧ (f o).listed = o.listed)
    (hheld : ∀ o, o.Held → (f o).Held)
    (hcancelled : ∀ o, o.cancelled = true → (f o).cancelled = true) :
    Inv { s with objects := s.objects.modify n f } := by
  constructor
  case vacant => exact hs.vacant
  case mirrors =>
    intro id e
    refine (hs.mirrors id e).trans ⟨?_, ?_⟩
    · rintro ⟨o, ho, hlisted, hid, he⟩
      obtain ⟨hfid, hfe, hflisted⟩ := hfields o
      rcases mem_modify n f ho with hmem | hmem
      · exact ⟨o, hmem, hlisted, hid, he⟩
      · exact ⟨f o, hmem, hflisted.trans hlisted, hfid.trans hid, hfe.trans he⟩
    · rintro ⟨o, ho, hlisted, hid, he⟩
      obtain ⟨former, hformer, rfl | rfl⟩ := mem_of_mem_modify ho
      · exact ⟨o, hformer, hlisted, hid, he⟩
      · obtain ⟨hfid, hfe, hflisted⟩ := hfields former
        exact ⟨former, hformer, hflisted.symm.trans hlisted, hfid.symm.trans hid,
          hfe.symm.trans he⟩
  case held =>
    intro o ho
    obtain ⟨former, hformer, rfl | rfl⟩ := mem_of_mem_modify ho
    · exact hs.held o hformer
    · exact hheld former (hs.held former hformer)
  case shutDown =>
    intro o ho hlisted
    obtain ⟨former, hformer, rfl | rfl⟩ := mem_of_mem_modify ho
    · exact hs.shutDown o hformer hlisted
    · rw [(hfields former).2.2] at hlisted
      exact hcancelled former (hs.shutDown former hformer hlisted)

/-- What becomes of an object in a step of the daemon. -/
theorem settle_cases (d : Daemon) (a : Daemon.Action) (o : DeviceObject) :
    d.settle a o = o ∨ o.listed = true ∧ d.settle a o = o.shutdown.release ∨
      o.listed = true ∧ d.settle a o = o.release := by
  unfold Daemon.settle
  split_ifs with hlisted hshut hclears
  · exact .inl rfl
  · exact .inr (.inl ⟨by simpa using hlisted, rfl⟩)
  · exact .inr (.inr ⟨by simpa using hlisted, rfl⟩)
  · exact .inl rfl

theorem settle_fields (d : Daemon) (a : Daemon.Action) (o : DeviceObject) :
    (d.settle a o).id = o.id ∧ (d.settle a o).device = o.device := by
  rcases settle_cases d a o with h | ⟨-, h⟩ | ⟨-, h⟩ <;> rw [h]
  · exact ⟨rfl, rfl⟩
  · exact ⟨o.shutdown.release_fields.1, o.shutdown.release_fields.2.1⟩
  · exact ⟨o.release_fields.1, o.release_fields.2.1⟩

theorem settle_held (h : o.Held) (d : Daemon) (a : Daemon.Action) : (d.settle a o).Held := by
  rcases settle_cases d a o with hs | ⟨-, hs⟩ | ⟨-, hs⟩ <;> rw [hs]
  · exact h
  · exact h.shutdown.release
  · exact h.release

/-- No insert of the daemon falls on the entry of an object. -/
theorem Inv.not_inserts (hs : s.Inv) (ho : o ∈ s.objects) (hlisted : o.listed = true)
    (a : Daemon.Action) : ((s.daemon.inserts a).any fun e => e.1 == o.id) = false := by
  cases hins : s.daemon.inserts a with
  | none => rfl
  | some entry =>
    have hget := (hs.mirrors o.id o.device).mpr ⟨o, ho, hlisted, rfl, rfl⟩
    have hne : entry.1 ≠ o.id := by
      intro heq
      rw [← heq, hs.vacant.get_inserts hins] at hget
      cases hget
    simpa using hne

/-- An object stays in the map unless it is shut down or thrown out. -/
theorem Inv.settle_listed (hs : s.Inv) (ho : o ∈ s.objects) (a : Daemon.Action) :
    (s.daemon.settle a o).listed = true ↔ o.listed = true ∧ Daemon.shutsDown o.id a = false ∧
      s.daemon.clears o.device a = false := by
  unfold Daemon.settle
  cases hlisted : o.listed with
  | false => simp [hlisted]
  | true =>
    rw [hs.not_inserts ho hlisted a]
    cases Daemon.shutsDown o.id a <;> cases s.daemon.clears o.device a <;>
      simp [hlisted, o.release_fields, o.shutdown.release_fields]

theorem Inv.mirrors_step (hs : s.Inv) (hstep : s.daemon.step a = some (d', ev)) :
    Mirrors ⟨d', ((s.daemon.inserts a).map fun e => DeviceObject.new e.1 e.2).toList ++
      s.objects.map (s.daemon.settle a)⟩ := by
  intro id e
  rw [hs.vacant.get_step hstep, hs.mirrors]
  constructor
  · rintro (hins | ⟨⟨o, ho, hlisted, rfl, rfl⟩, hshut, hclears⟩)
    · exact ⟨.new id e, by simp [hins], rfl, rfl, rfl⟩
    · refine ⟨s.daemon.settle a o, ?_, (hs.settle_listed ho a).mpr ⟨hlisted, hshut, hclears⟩,
        settle_fields _ _ _⟩
      exact List.mem_append_right _ (List.mem_map_of_mem ho)
  · rintro ⟨o, ho, hlisted, rfl, rfl⟩
    rcases List.mem_append.mp ho with hnew | hold
    · obtain ⟨entry, hins, rfl⟩ := Option.map_eq_some_iff.mp (Option.mem_toList.mp hnew)
      exact .inl hins
    · obtain ⟨former, hformer, rfl⟩ := List.mem_map.mp hold
      obtain ⟨hl, hshut, hclears⟩ := (hs.settle_listed hformer a).mp hlisted
      rw [(settle_fields _ _ former).1, (settle_fields _ _ former).2]
      exact .inr ⟨⟨former, hformer, hl, rfl, rfl⟩, hshut, hclears⟩

theorem clears_of_shutsDown {id : ℕ} {a : Daemon.Action} (h : Daemon.shutsDown id a = true)
    (d : Daemon) (device : Device) : d.clears device a = false := by
  cases a with
  | usbRetain => cases h
  | notice id => cases h
  | _ => rfl

/-- An object that is out of the map after a step is shut down, unless it is a
USB device that a `retain` throws out. -/
theorem Inv.settle_shutDown (hs : s.Inv) (ho : o ∈ s.objects) (a : Daemon.Action) :
    ((s.daemon.settle a o).listed = false → (s.daemon.settle a o).cancelled = true) ↔
      (o.listed = true → o.device.isUsb = true → s.daemon.clears o.device a = true →
        o.cancelled = true) := by
  have hheld := hs.held o ho
  unfold Daemon.settle
  cases hlisted : o.listed with
  | false => simpa [hlisted] using hs.shutDown o ho hlisted
  | true =>
    rw [hs.not_inserts ho hlisted a]
    cases hshut : Daemon.shutsDown o.id a with
    | true =>
      have hcancelled := hheld.shutdown.release_cancelled.mpr (.inl rfl)
      simp [hcancelled, clears_of_shutsDown hshut]
    | false =>
      cases hclears : s.daemon.clears o.device a with
      | true =>
        simp only [Bool.not_true, Bool.false_eq_true, if_false, Bool.true_or, if_true,
          o.release_fields.2.2, forall_const, hheld.release_cancelled]
        cases o.device.isUsb <;> simp
      | false => simp [hlisted]

theorem Inv.daemon_step (hs : s.Inv) (h : s.step (.daemon a) = some t) :
    (s.SparesUsb (.daemon a) → t.Inv) ∧ (t.ShutDown → s.SparesUsb (.daemon a)) := by
  obtain ⟨⟨d', ev⟩, hstep, rfl⟩ := Option.map_eq_some_iff.mp h
  constructor
  · intro hspares
    constructor
    case vacant => exact hs.vacant.step hstep
    case mirrors => exact hs.mirrors_step hstep
    case held =>
      intro o ho
      rcases List.mem_append.mp ho with hnew | hold
      · obtain ⟨entry, -, rfl⟩ := Option.map_eq_some_iff.mp (Option.mem_toList.mp hnew)
        exact DeviceObject.held_new _ _
      · obtain ⟨former, hformer, rfl⟩ := List.mem_map.mp hold
        exact settle_held (hs.held former hformer) _ a
    case shutDown =>
      intro o ho
      rcases List.mem_append.mp ho with hnew | hold
      · obtain ⟨entry, -, rfl⟩ := Option.map_eq_some_iff.mp (Option.mem_toList.mp hnew)
        exact fun hlisted => by cases hlisted
      · obtain ⟨former, hformer, rfl⟩ := List.mem_map.mp hold
        exact (hs.settle_shutDown hformer a).mpr (hspares former hformer)
  · intro hshut o ho
    refine (hs.settle_shutDown ho a).mp (hshut _ ?_)
    exact List.mem_append_right _ (List.mem_map_of_mem ho)

theorem dropLoose_fields (o : DeviceObject) : o.dropLoose.id = o.id ∧
    o.dropLoose.device = o.device ∧ o.dropLoose.listed = o.listed ∧
      (o.cancelled = true → o.dropLoose.cancelled = true) := by
  rcases o.dropLoose_cases with h | h <;> rw [h]
  · exact ⟨rfl, rfl, rfl, fun hc => hc⟩
  · exact ⟨rfl, rfl, rfl, fun _ => rfl⟩

theorem inv_step {a : Action} (hs : s.Inv) (h : s.step a = some t) :
    (s.SparesUsb a → t.Inv) ∧ (t.ShutDown → s.SparesUsb a) := by
  cases a with
  | daemon a => exact hs.daemon_step h
  | readerEnds n =>
    cases h
    refine ⟨fun _ => hs.modify n _ (fun o => ?_) (fun o ho => ho.endReader) fun o => ?_,
      fun _ => trivial⟩
    · obtain ⟨hid, hdevice, hlisted, -⟩ := dropLoose_fields { o with reader := false }
      exact ⟨hid, hdevice, hlisted⟩
    · exact (dropLoose_fields { o with reader := false }).2.2.2
  | writerEnds n =>
    cases h
    refine ⟨fun _ => hs.modify n _ (fun o => ?_) (fun o ho => ho.endWriter) fun o => ?_,
      fun _ => trivial⟩
    · obtain ⟨hid, hdevice, hlisted, -⟩ := dropLoose_fields { o with writer := false }
      unfold DeviceObject.endWriter
      split_ifs
      · exact ⟨hid, hdevice, hlisted⟩
      · exact ⟨rfl, rfl, rfl⟩
    · unfold DeviceObject.endWriter
      split_ifs
      · exact (dropLoose_fields { o with writer := false }).2.2.2
      · exact id
  | cleanup n =>
    cases h
    refine ⟨fun _ => hs.modify n _ (fun o => ?_) (fun o ho => ?_) fun o => ?_, fun _ => trivial⟩
    · split_ifs <;> exact ⟨rfl, rfl, rfl⟩
    · split_ifs
      · exact ho.shutdown
      · exact ho
    · split_ifs
      · exact fun _ => rfl
      · exact id

end

/-- Every device that has left the map is shut down, if and only if no `retain`
throws a USB device out before that. -/
theorem shutDown_iff_sparesUsb (as : List Action) :
    StepSystem.EveryState step ShutDown start as ↔
      StepSystem.EveryStep step SparesUsb start as :=
  StepSystem.everyState_iff_everyStep (fun _ _ _ hs h => inv_step hs h)
    (fun _ hs => hs.shutDown) inv_start as

/-- A USB device arrives, and its reader loop ends with an IO error. -/
def noticeRun : List Action :=
  [.daemon (.usbConnected 1 ⟨APPLE_VID, some "A", 9⟩ none), .daemon .usbRetain,
    .daemon .usbInsert, .readerEnds 0, .daemon (.notice 1)]

/-- The notice takes the device out of the map, and its writer loop runs on. -/
theorem not_shutDown_notice : ¬ ∀ as : List Action,
    StepSystem.EveryState step ShutDown start as := by
  intro h
  have hlast := (h noticeRun).last rfl
  have hcancelled := hlast ⟨1, .usb ⟨APPLE_VID, some "A", 9⟩, false, false, false, true⟩
    (by decide) rfl
  exact absurd hcancelled (by decide)

end DeviceObjects

end Rusbmux
