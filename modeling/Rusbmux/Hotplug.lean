import Rusbmux.Registry
import Rusbmux.Errors

/-! src/watcher/usb.rs: the stream of USB hotplug events and the daemon that
takes them. -/
namespace Rusbmux

/-- One round of the loop that looks for a device that could not be opened:
what `list_devices` returns, and how `Device::new_usb` ends if it is called. -/
structure Retry where
  listed : List DeviceInfo
  opened : Except RusbmuxError Unit

/-- An item of `watch_devices`. A connected device comes with how the first
`Device::new_usb` ends and with the rounds before the deadline. -/
inductive BackendEvent where
  | connected (info : DeviceInfo) (id : ℕ) (opened : Except RusbmuxError Unit)
    (retries : List Retry)
  | disconnected (id : ℕ)
  | error (e : RusbmuxError)

inductive UsbEvent where
  | connected (device : Device) (id : ℕ)
  | disconnected (id : ℕ)
  deriving DecidableEq, Repr

abbrev UsbItem := Except RusbmuxError UsbEvent

/-- The device that a round of the loop opens. -/
def Retry.device (r : Retry) (opaqueId : UInt64) : Option Device :=
  match r.listed.find? fun info => info.opaqueId = opaqueId, r.opened with
  | some info, .ok _ => some (.usb info)
  | _, _ => none

def openUsb (info : DeviceInfo) (opened : Except RusbmuxError Unit) (retries : List Retry) :
    Except RusbmuxError Device :=
  match opened with
  | .ok _ => .ok (.usb info)
  | .error firstError => match retries.findSome? fun r => r.device info.opaqueId with
    | some device => .ok device
    | none => .error firstError

namespace BackendEvent

/-- An event that the stream has an item for. -/
def relevant : BackendEvent → Bool
  | connected info _ _ _ => info.vendorId == APPLE_VID
  | disconnected _ => true
  | error _ => false

/-- The first try to open the device fails and no later round opens it. -/
def cannotOpen : BackendEvent → Bool
  | connected info _ (.error _) retries =>
    info.vendorId == APPLE_VID && retries.all fun r => (r.device info.opaqueId).isNone
  | _ => false

end BackendEvent

/-- The item for one event of the backend, `none` when there is none. -/
def itemOf : BackendEvent → Option UsbItem
  | .connected info id opened retries =>
    if info.vendorId ≠ APPLE_VID then none
    else some ((openUsb info opened retries).map fun device => .connected device id)
  | .disconnected id => some (.ok (.disconnected id))
  | .error _ => none

/-- The loop of `watch_usb`. An item that is an error ends the stream. -/
def usbItems : List BackendEvent → List UsbItem
  | [] => []
  | e :: events => match itemOf e with
    | none => usbItems events
    | some (.ok event) => .ok event :: usbItems events
    | some (.error err) => [.error err]

def watchUsb (watchDevices : Except RusbmuxError (List BackendEvent)) : List UsbItem :=
  match watchDevices with
  | .ok events => usbItems events
  | .error e => [.error e]

/-- What comes to the daemon: an event of the backend, or a reader loop's
notice that its device is gone. The latter comes with the device that is found
and opened again. -/
inductive HotplugInput where
  | backend (e : BackendEvent)
  | notice (id : ℕ) (opaqueId : UInt64) (reopened : Option DeviceInfo)

/-- The daemon with the registry and what it has broadcast. `streaming` holds
until `watch_usb` has ended. -/
structure HotplugDaemon where
  streaming : Bool
  devices : Registry
  sent : List DeviceEvent

namespace HotplugDaemon

-- which of the entries that meet a condition an iteration comes to first
variable (find : Registry → (Device → Bool) → Option ℕ)
-- how `Device::shutdown` ends
variable (shutdown : ℕ → Except RusbmuxError Unit)

def send (s : HotplugDaemon) (e : DeviceEvent) : HotplugDaemon := { s with sent := s.sent ++ [e] }

def sendFound (s : HotplugDaemon) (event : ℕ → DeviceEvent) (found : Option ℕ) : HotplugDaemon :=
  match found with
  | some id => s.send (event id)
  | none => s

def removeDevice (s : HotplugDaemon) (id : ℕ) : Except RusbmuxError Unit × HotplugDaemon :=
  match s.devices.get id with
  | none => (.error (.deviceNotFound id), s)
  | some device =>
    -- the entry is out whether or not the shutdown succeeds
    let s := { s with devices := s.devices.remove id }
    match shutdown id with
    | .error e => (.error e, s)
    | .ok _ =>
      if device.isUsb then
        (.ok (), s.sendFound .attached (find s.devices (Device.isNetworkOf device.serialNumber)))
      else if s.devices.hasUsb device.serialNumber then (.ok (), s)
      else (.ok (), s.send (.detached id))

/-- The body of the branch of `select!` for an item. -/
def handle (s : HotplugDaemon) : UsbItem → HotplugDaemon
  | .ok (.connected device id) =>
    -- the network twin is announced as detached; the device itself is not as attached
    let s := s.sendFound .detached (find s.devices (Device.isNetworkOf device.serialNumber))
    let devices := s.devices.retain fun _ d => d.serialNumber != device.serialNumber
    { s with devices := devices.insert id device }
  | .ok (.disconnected id) => match s.removeDevice find shutdown id with
    | (.ok _, s) => s.send (.detached id)
    | (.error _, s) => s
  | .error _ => s

/-- The body of the branch of `select!` for a notice. -/
def reopen (s : HotplugDaemon) (id : ℕ) (opaqueId : UInt64) (reopened : Option DeviceInfo) :
    HotplugDaemon :=
  let s := { s with devices := s.devices.retain fun _ d => d.opaqueId != opaqueId }
  let s := s.send (.detached id)
  match reopened with
  | some info => { s with devices := s.devices.insert id (.usb info) }.send (.attached id)
  | none => s

/-- One turn of the loop. When the stream has ended its branch of `select!` is
disabled, and only notices are taken. -/
def turn (s : HotplugDaemon) : HotplugInput → HotplugDaemon
  | .backend e => if s.streaming then
      match itemOf e with
      | none => s
      | some (.ok event) => s.handle find shutdown (.ok event)
      -- the daemon logs the error, but `try_stream!` has ended with it
      | some (.error err) => { s.handle find shutdown (.error err) with streaming := false }
    else s
  | .notice id opaqueId reopened => s.reopen id opaqueId reopened

def run (s : HotplugDaemon) (inputs : List HotplugInput) : HotplugDaemon :=
  inputs.foldl (turn find shutdown) s

def start (devices : Registry) : HotplugDaemon := ⟨true, devices, []⟩

end HotplugDaemon

/-- The events of the backend among the inputs. -/
def backendEvents (inputs : List HotplugInput) : List BackendEvent :=
  inputs.filterMap fun
    | .backend e => some e
    | .notice _ _ _ => none

/-- The inputs without the devices that cannot be opened: neither their arrival
nor a later removal. `gone` has the ids left out so far. -/
def others : List ℕ → List HotplugInput → List HotplugInput
  | _, [] => []
  | gone, .backend (.connected info id opened retries) :: inputs =>
    if (BackendEvent.connected info id opened retries).cannotOpen then others (id :: gone) inputs
    else .backend (.connected info id opened retries) :: others gone inputs
  | gone, .backend (.disconnected id) :: inputs =>
    if id ∈ gone then others gone inputs else .backend (.disconnected id) :: others gone inputs
  | gone, i :: inputs => i :: others gone inputs

/-- Each relevant event has its item, and the daemon does what it does when the
devices that cannot be opened never appear. -/
structure Isolated (find : Registry → (Device → Bool) → Option ℕ)
    (shutdown : ℕ → Except RusbmuxError Unit) (devices : Registry)
    (inputs : List HotplugInput) : Prop where
  items : watchUsb (.ok (backendEvents inputs)) = (backendEvents inputs).filterMap itemOf
  devices_eq : ((HotplugDaemon.start devices).run find shutdown inputs).devices =
    ((HotplugDaemon.start devices).run find shutdown (others [] inputs)).devices
  sent_eq : ((HotplugDaemon.start devices).run find shutdown inputs).sent =
    ((HotplugDaemon.start devices).run find shutdown (others [] inputs)).sent

/-- No relevant event comes after an arrival that cannot be opened. -/
def QuietAfterFailure (events : List BackendEvent) : Prop :=
  events.Pairwise fun e later => e.cannotOpen = true → later.relevant = false

theorem itemOf_eq_none_iff (e : BackendEvent) : itemOf e = none ↔ e.relevant = false := by
  cases e <;> simp [itemOf, BackendEvent.relevant]

theorem cannotOpen_iff (e : BackendEvent) :
    e.cannotOpen = true ↔ ∃ err, itemOf e = some (.error err) := by
  cases e with
  | connected info id opened retries =>
    by_cases hv : info.vendorId = APPLE_VID
    · cases opened with
      | ok _ => simp [BackendEvent.cannotOpen, itemOf, openUsb, hv, Except.map]
      | error firstError =>
        cases hf : retries.findSome? fun r => r.device info.opaqueId with
        | some device =>
          have hr : ¬∀ r ∈ retries, r.device info.opaqueId = none := by
            rw [← List.findSome?_eq_none_iff, hf]
            exact Option.some_ne_none device
          simpa [BackendEvent.cannotOpen, itemOf, openUsb, hv, hf, Except.map] using hr
        | none =>
          have hr := List.findSome?_eq_none_iff.mp hf
          simpa [BackendEvent.cannotOpen, itemOf, openUsb, hv, hf, Except.map] using hr
    · cases opened <;> simp [BackendEvent.cannotOpen, itemOf, hv]
  | disconnected id => simp [BackendEvent.cannotOpen, itemOf]
  | error err => simp [BackendEvent.cannotOpen, itemOf]

/-- The stream has every item exactly when nothing is left to tell after its
first error. -/
theorem usbItems_eq_iff (events : List BackendEvent) :
    usbItems events = events.filterMap itemOf ↔ QuietAfterFailure events := by
  induction events with
  | nil => simp [usbItems, QuietAfterFailure]
  | cons e events ih =>
    have hopen := cannotOpen_iff e
    rw [QuietAfterFailure, List.pairwise_cons, ← QuietAfterFailure, usbItems]
    cases hitem : itemOf e with
    | none =>
      -- filtered or only logged: neither list has an item
      have hc : e.cannotOpen = false := by simpa [hitem] using hopen
      simp [hitem, hc, ih]
    | some item =>
      cases item with
      | ok event =>
        have hc : e.cannotOpen = false := by simpa [hitem] using hopen
        simp [hitem, hc, ih]
      | error err =>
        have hc : e.cannotOpen = true := hopen.mpr ⟨err, hitem⟩
        have hquiet : events.filterMap itemOf = [] ↔ ∀ l ∈ events, l.relevant = false := by
          simp only [List.filterMap_eq_nil_iff, itemOf_eq_none_iff]
        -- the stream ends here, so that nothing may follow in the other list
        simp only [List.filterMap_cons, hitem, List.cons.injEq, true_and, hc, forall_const]
        rw [eq_comm, hquiet]
        refine ⟨fun h => ⟨h, ?_⟩, fun h => h.1⟩
        exact List.pairwise_of_forall_mem_list fun _ _ l hl _ => h l hl

theorem forall_backend_of_quiet {i : HotplugInput} {inputs : List HotplugInput}
    (h : ∀ e ∈ backendEvents (i :: inputs), e.relevant = false) :
    (∀ e, i = .backend e → e.relevant = false) ∧
      ∀ e ∈ backendEvents inputs, e.relevant = false := by
  constructor
  · rintro e rfl
    exact h e (by simp [backendEvents])
  · intro e he
    obtain ⟨j, hj, hje⟩ := List.mem_filterMap.mp he
    exact h e (List.mem_filterMap.mpr ⟨j, List.mem_cons_of_mem i hj, hje⟩)

namespace HotplugDaemon

variable {find : Registry → (Device → Bool) → Option ℕ}
  {shutdown : ℕ → Except RusbmuxError Unit}

/-- The daemon as it is once the stream has ended. -/
def ended (s : HotplugDaemon) : HotplugDaemon := { s with streaming := false }

theorem sendFound_streaming (s : HotplugDaemon) (event : ℕ → DeviceEvent) (found : Option ℕ) :
    (s.sendFound event found).streaming = s.streaming := by
  cases found <;> rfl

theorem removeDevice_streaming (s : HotplugDaemon) (id : ℕ) :
    (s.removeDevice find shutdown id).2.streaming = s.streaming := by
  unfold removeDevice
  cases s.devices.get id with
  | none => rfl
  | some device =>
    cases hs : shutdown id with
    | error e => rfl
    | ok _ =>
      simp only
      split_ifs
      · exact sendFound_streaming _ _ _
      · rfl
      · rfl

theorem handle_streaming (s : HotplugDaemon) (item : UsbItem) :
    (s.handle find shutdown item).streaming = s.streaming := by
  match item with
  | .ok (.connected device id) => exact sendFound_streaming _ _ _
  | .ok (.disconnected id) =>
    have hr : (s.removeDevice find shutdown id).2.streaming = s.streaming :=
      removeDevice_streaming s id
    rw [handle]
    split <;> simp_all [send]
  | .error _ => rfl

theorem reopen_streaming (s : HotplugDaemon) (id : ℕ) (opaqueId : UInt64)
    (reopened : Option DeviceInfo) :
    (s.reopen id opaqueId reopened).streaming = s.streaming := by
  cases reopened <;> rfl

/-- Only an arrival that cannot be opened ends the stream. -/
theorem turn_streaming (s : HotplugDaemon) (i : HotplugInput)
    (hi : ∀ e, i = .backend e → e.cannotOpen = false) :
    (s.turn find shutdown i).streaming = s.streaming := by
  cases i with
  | notice id opaqueId reopened => exact reopen_streaming s id opaqueId reopened
  | backend e =>
    have hopen := cannotOpen_iff e
    rw [hi e rfl] at hopen
    rw [turn]
    split_ifs
    · cases hitem : itemOf e with
      | none => rfl
      | some item => cases item with
        | ok event => exact handle_streaming s _
        | error err => simp [hitem] at hopen
    · rfl

theorem turn_cannotOpen (s : HotplugDaemon) (e : BackendEvent) (hs : s.streaming = true)
    (he : e.cannotOpen = true) : s.turn find shutdown (.backend e) = s.ended := by
  obtain ⟨err, hitem⟩ := (cannotOpen_iff e).mp he
  simp only [turn, hs, ↓reduceIte, hitem, handle, ended]

/-- Where no relevant event comes, it makes no difference that the stream has
ended. -/
theorem turn_ended (s : HotplugDaemon) (i : HotplugInput)
    (hi : ∀ e, i = .backend e → e.relevant = false) :
    s.ended.turn find shutdown i = (s.turn find shutdown i).ended := by
  cases i with
  | notice id opaqueId reopened => cases reopened <;> rfl
  | backend e =>
    have hitem := (itemOf_eq_none_iff e).mpr (hi e rfl)
    simp only [turn, hitem, ended, Bool.false_eq_true, ↓reduceIte, ite_self]

theorem run_ended (s : HotplugDaemon) (inputs : List HotplugInput)
    (h : ∀ e ∈ backendEvents inputs, e.relevant = false) :
    s.ended.run find shutdown inputs = (s.run find shutdown inputs).ended := by
  induction inputs generalizing s with
  | nil => rfl
  | cons i inputs ih =>
    obtain ⟨hi, hrest⟩ := forall_backend_of_quiet h
    have hrun := ih (s.turn find shutdown i) hrest
    rw [← turn_ended s i hi] at hrun
    exact hrun

/-- Nothing is left out of inputs that have no relevant event. -/
theorem others_of_quiet (gone : List ℕ) (inputs : List HotplugInput)
    (h : ∀ e ∈ backendEvents inputs, e.relevant = false) : others gone inputs = inputs := by
  induction inputs generalizing gone with
  | nil => rfl
  | cons i inputs ih =>
    obtain ⟨hi, hrest⟩ := forall_backend_of_quiet h
    match i with
    | .notice _ _ _ => rw [others, ih gone hrest] <;> nofun
    | .backend (.error _) => rw [others, ih gone hrest] <;> nofun
    | .backend (.disconnected id) =>
      have htrue : true = false := hi _ rfl
      cases htrue
    | .backend (.connected info id opened retries) =>
      have hv : (info.vendorId == APPLE_VID) = false := hi _ rfl
      have hc : (BackendEvent.connected info id opened retries).cannotOpen = false := by
        cases opened <;> simp [BackendEvent.cannotOpen, hv]
      rw [others, hc, ih gone hrest]
      rfl

theorem others_of_canOpen (i : HotplugInput) (inputs : List HotplugInput)
    (hi : ∀ e, i = .backend e → e.cannotOpen = false) :
    others [] (i :: inputs) = i :: others [] inputs := by
  match i with
  | .notice _ _ _ => rw [others] <;> nofun
  | .backend (.error _) => rw [others] <;> nofun
  | .backend (.disconnected id) => rw [others, if_neg (List.not_mem_nil)]
  | .backend (.connected info id opened retries) =>
    rw [others, hi _ rfl]
    rfl

/-- The daemon leaves out just what `others` does. -/
theorem run_others (s : HotplugDaemon) (inputs : List HotplugInput) (hs : s.streaming = true)
    (h : QuietAfterFailure (backendEvents inputs)) :
    (s.run find shutdown inputs).ended = (s.run find shutdown (others [] inputs)).ended := by
  induction inputs generalizing s with
  | nil => rfl
  | cons i inputs ih =>
    by_cases hi : ∀ e, i = .backend e → e.cannotOpen = false
    · -- nothing is left out, and the stream goes on
      have hrest : QuietAfterFailure (backendEvents inputs) := by
        cases i with
        | notice _ _ _ => exact h
        | backend e => exact (List.pairwise_cons.mp h).2
      rw [others_of_canOpen i inputs hi]
      exact ih (s.turn find shutdown i) ((turn_streaming s i hi).trans hs) hrest
    · simp only [not_forall, Bool.not_eq_false] at hi
      -- the arrival is left out, and nothing relevant comes after it
      obtain ⟨e, rfl, hopen⟩ := hi
      have hquiet : ∀ l ∈ backendEvents inputs, l.relevant = false :=
        fun l hl => (List.pairwise_cons.mp h).1 l hl hopen
      have hleft : others [] (.backend e :: inputs) = inputs := by
        match e, hopen with
        | .connected info id opened retries, hopen =>
          rw [others, if_pos hopen, others_of_quiet [id] inputs hquiet]
      have hrun : s.run find shutdown (.backend e :: inputs) = s.ended.run find shutdown inputs :=
        congrArg (run find shutdown · inputs) (turn_cannotOpen s e hs hopen)
      rw [hleft, hrun, run_ended s inputs hquiet]
      rfl

end HotplugDaemon

/-- Devices that cannot be opened are isolated from the others exactly when no
Apple device arrives and none is removed after the first of them. -/
theorem isolated_iff_quietAfterFailure (find : Registry → (Device → Bool) → Option ℕ)
    (shutdown : ℕ → Except RusbmuxError Unit) (devices : Registry)
    (inputs : List HotplugInput) :
    Isolated find shutdown devices inputs ↔ QuietAfterFailure (backendEvents inputs) := by
  constructor
  · intro h
    exact (usbItems_eq_iff _).mp h.items
  · intro h
    have hitems : watchUsb (.ok (backendEvents inputs)) = _ := (usbItems_eq_iff _).mpr h
    have hrun : ((HotplugDaemon.start devices).run find shutdown inputs).ended =
        ((HotplugDaemon.start devices).run find shutdown (others [] inputs)).ended :=
      HotplugDaemon.run_others _ inputs rfl h
    have hdevices := congrArg HotplugDaemon.devices hrun
    have hsent := congrArg HotplugDaemon.sent hrun
    exact ⟨hitems, hdevices, hsent⟩

/-- A device that arrives after one that cannot be opened is not seen. -/
theorem not_isolated_second_arrival :
    ¬ Isolated (fun _ _ => none) (fun _ => .ok ()) .empty
      [.backend (.connected ⟨APPLE_VID, some "A", 1⟩ 0 (.error .usbmuxInterfaceNotFound) []),
        .backend (.connected ⟨APPLE_VID, some "B", 2⟩ 1 (.ok ()) [])] := by
  intro h
  exact absurd (congrArg List.length h.items) (by decide)

end Rusbmux
