import Rusbmux.Registry
import Rusbmux.StepSystem

/-! The tasks that change `CONNECTED_DEVICES` and broadcast what they do, and
the clients that listen: src/watcher/usb.rs, src/watcher/network.rs,
`remove_device`, the heartbeat of src/device/network.rs and
src/handler/listen.rs. A step is one access to the map or one event sent. A
search that keeps its entry locked while it sends is one step. A step of a search
comes with the calls of `serial_number` in it. -/
namespace Rusbmux

/-- Where `watch_usb_daemon` is. -/
inductive UsbTask where
  | idle
  /-- Connected: the network twin is detached, `retain` is next. -/
  | arrived (id : ℕ) (info : DeviceInfo)
  /-- Connected: `insert` is next. -/
  | retained (id : ℕ) (info : DeviceInfo)
  /-- Disconnected: `remove_device` has the device and shuts it down. -/
  | removed (id : ℕ) (info : DeviceInfo)
  /-- Disconnected: the network twin is attached, the event for `id` is next. -/
  | leaving (id : ℕ)
  /-- A notice: the entries are gone, the event for `id` is next. -/
  | lost (id : ℕ) (opaqueId : UInt64)
  /-- A notice: the device is looked for and opened again. -/
  | reopening (id : ℕ) (opaqueId : UInt64)
  /-- A notice: the device is back, the event for `id` is next. -/
  | reopened (id : ℕ)
  deriving DecidableEq, Repr

/-- Where a `network_device_add` is. -/
inductive AddTask where
  | connecting (macAddress serialNumber : String)
  /-- The entry is in, the search for a USB device is next. -/
  | inserted (serialNumber : String)
  /-- The event is next. -/
  | announcing
  deriving DecidableEq, Repr

/-- Where the removal of a network device is, by mDNS or by its heartbeat. -/
inductive RemoveTask where
  /-- The entry is out, the search for a USB device is next. -/
  | removed (serialNumber : String)
  /-- The event is next. -/
  | announcing
  deriving DecidableEq, Repr

/-- The daemon. The tasks of network devices are under the ids of the devices. -/
structure Daemon where
  devices : Registry
  /-- The ids that the registry has had. -/
  ids : List ℕ
  /-- The opaque id for each reader loop that runs or whose notice waits. -/
  readers : KeyTable ℕ UInt64
  usb : UsbTask
  adding : KeyTable ℕ AddTask
  removing : KeyTable ℕ RemoveTask

def UsbTask.arrival : UsbTask → Option ℕ
  | arrived id _ | retained id _ => some id
  | _ => none

namespace Daemon

inductive Action where
  | usbConnected (id : ℕ) (info : DeviceInfo) (twin : Option ℕ)
  | usbRetain
  | usbInsert
  | usbDisconnected (id : ℕ)
  | shutdownFails
  /-- The shutdown is done, and the network twin is looked for. -/
  | announceTwin (twin : Option ℕ)
  | sendDetached
  | notice (id : ℕ)
  | reopenFails
  | reopen (info : DeviceInfo)
  | sendAttached
  | serviceResolved (id : ℕ) (macAddress serialNumber : String)
  | networkFails (id : ℕ)
  | networkInsert (id : ℕ)
  | networkCheck (id : ℕ)
  | networkAttached (id : ℕ)
  | serviceRemoved (id : ℕ) (macAddress : String)
  | heartbeatFails (id : ℕ)
  | removalCheck (id : ℕ)
  | removalDetached (id : ℕ)

/-- What `take_new_id` may return: an id that no device has had or waits for, as the
first 2^64 ids that it gives out are. -/
def isNew (d : Daemon) (id : ℕ) : Bool :=
  !d.ids.contains id && (d.adding.get id).isNone && d.usb.arrival != some id

/-- The entry of a network device is taken out. -/
def takeNetwork (d : Daemon) (id : ℕ) (serial : String) : Daemon :=
  { d with devices := d.devices.remove id, removing := d.removing.insert id (.removed serial) }

def stepUsb (reads : SerialReads) (d : Daemon) :
    UsbTask → Action → Option (Daemon × Option DeviceEvent)
  | .idle, .usbConnected id info twin =>
    if d.isNew id && d.devices.findsRead reads (.usb info) twin then
      some ({ d with usb := .arrived id info }, twin.map .detached)
    else none
  | .arrived id info, .usbRetain =>
    let devices := d.devices.retainOthers reads (.usb info)
    some ({ d with devices := devices, usb := .retained id info }, none)
  -- an arrival ends here: nothing is sent about the device
  | .retained id info, .usbInsert =>
    some ({ d with
      devices := d.devices.insert id (.usb info)
      ids := id :: d.ids
      readers := d.readers.insert id info.opaqueId
      usb := .idle }, none)
  | .idle, .usbDisconnected id => match d.devices.get id with
    | some (.usb info) =>
      some ({ d with devices := d.devices.remove id, usb := .removed id info }, none)
    -- an id of the backend is never one of a network device
    | some (.network _ _) => none
    | none => some (d, none)
  -- `remove_device` fails, so no event follows the removal
  | .removed _ _, .shutdownFails => some ({ d with usb := .idle }, none)
  | .removed id info, .announceTwin twin =>
    if d.devices.findsRead reads (.usb info) twin then
      some ({ d with usb := .leaving id }, twin.map .attached)
    else none
  | .leaving id, .sendDetached => some ({ d with usb := .idle }, some (.detached id))
  | .idle, .notice id => (d.readers.get id).map fun opaqueId =>
    ({ d with
      devices := d.devices.retain fun _ e => e.opaqueId != opaqueId
      readers := d.readers.remove id
      usb := .lost id opaqueId }, none)
  | .lost id opaqueId, .sendDetached =>
    some ({ d with usb := .reopening id opaqueId }, some (.detached id))
  -- a network device with its serial number, if any, is not looked for
  | .reopening _ _, .reopenFails => some ({ d with usb := .idle }, none)
  | .reopening id opaqueId, .reopen info =>
    if info.opaqueId = opaqueId then
      some ({ d with
        devices := d.devices.insert id (.usb info)
        readers := d.readers.insert id opaqueId
        usb := .reopened id }, none)
    else none
  | .reopened id, .sendAttached => some ({ d with usb := .idle }, some (.attached id))
  | _, _ => none

def stepNetwork (reads : SerialReads) (d : Daemon) :
    Action → Option (Daemon × Option DeviceEvent)
  | .serviceResolved id mac serial =>
    -- resolved again while its entry is there
    if d.devices.hasNetwork serial then some (d, none)
    else if d.isNew id then
      some ({ d with adding := d.adding.insert id (.connecting mac serial) }, none)
    else none
  | .networkFails id => match d.adding.get id with
    | some (.connecting _ _) => some ({ d with adding := d.adding.remove id }, none)
    | _ => none
  | .networkInsert id => match d.adding.get id with
    | some (.connecting mac serial) =>
      some ({ d with
        devices := d.devices.insert id (.network mac serial)
        ids := id :: d.ids
        adding := d.adding.insert id (.inserted serial) }, none)
    | _ => none
  | .networkCheck id => match d.adding.get id with
    | some (.inserted serial) =>
      if d.devices.hasUsbRead reads serial then
        some ({ d with adding := d.adding.remove id }, none)
      else some ({ d with adding := d.adding.insert id .announcing }, none)
    | _ => none
  | .networkAttached id => match d.adding.get id with
    | some .announcing => some ({ d with adding := d.adding.remove id }, some (.attached id))
    | _ => none
  | .serviceRemoved id mac => match d.devices.get id with
    | some (.network m serial) => if m = mac then some (d.takeNetwork id serial, none) else none
    | _ => none
  | .heartbeatFails id => match d.devices.get id with
    | some (.network _ serial) => some (d.takeNetwork id serial, none)
    | _ => none
  | .removalCheck id => match d.removing.get id with
    | some (.removed serial) =>
      if d.devices.hasUsbRead reads serial then
        some ({ d with removing := d.removing.remove id }, none)
      else some ({ d with removing := d.removing.insert id .announcing }, none)
    | _ => none
  | .removalDetached id => match d.removing.get id with
    | some .announcing => some ({ d with removing := d.removing.remove id }, some (.detached id))
    | _ => none
  | _ => none

/-- One step of a task, with the event that it sends. -/
def stepRead (reads : SerialReads) (d : Daemon) (a : Action) :
    Option (Daemon × Option DeviceEvent) :=
  (d.stepUsb reads d.usb a).orElse fun _ => d.stepNetwork reads a

/-- A step in which every call of `serial_number` gives the device's own. -/
def step (d : Daemon) (a : Action) : Option (Daemon × Option DeviceEvent) := d.stepRead .own a

def start : Daemon := ⟨.empty, [], .empty, .idle, .empty, .empty⟩

/-- No task is between a change of the registry and the event about it. -/
def atRest (d : Daemon) : Bool :=
  (match d.usb with
    | .idle | .reopening _ _ => true
    | _ => false) &&
  !(d.adding.any fun _ task => match task with
    | .connecting _ _ => false
    | .inserted _ | .announcing => true) &&
  d.removing.entries.isEmpty

end Daemon

/-- Where a `handle_listen` is, with the ids that its client was told attached
and not detached later. -/
inductive ListenPhase where
  | subscribed
  /-- In `send_currently_connected`, with the entries not met so far. -/
  | snapshot (left view : List ℕ)
  | listening (view : List ℕ)
  deriving DecidableEq, Repr

/-- A client with the events that its receiver has not returned. -/
structure Listener where
  phase : ListenPhase
  queue : List DeviceEvent
  deriving DecidableEq, Repr

namespace Listener

inductive Action where
  | beginSnapshot
  /-- The iteration comes to the entry. -/
  | visit (id : ℕ) (reads : SerialReads)
  | endSnapshot
  | recv

/-- The client's view after an event. An attach event without an entry is skipped. -/
def tell (devices : Registry) (view : List ℕ) : DeviceEvent → List ℕ
  | .attached id => if (devices.get id).isSome then id :: view else view
  | .detached id => view.filter (· ≠ id)

/-- The iteration of a snapshot meets every entry that stays, and may meet one
that comes in meanwhile. -/
def step (devices : Registry) (l : Listener) : Action → Option Listener
  | .beginSnapshot => match l.phase with
    | .subscribed => some { l with phase := .snapshot devices.keys [] }
    | _ => none
  | .visit id reads => match l.phase with
    | .snapshot left view => if (devices.get id).isSome then
        let view := if devices.listedRead reads id then id :: view else view
        some { l with phase := .snapshot (left.filter (· ≠ id)) view }
      else none
    | _ => none
  | .endSnapshot => match l.phase with
    | .snapshot left view => if left.all fun id => (devices.get id).isNone then
        some { l with phase := .listening view }
      else none
    | _ => none
  | .recv => match l.phase, l.queue with
    | .listening view, e :: queue => some ⟨.listening (tell devices view e), queue⟩
    | _, _ => none

/-- A receiver gets what is sent from its subscription on. -/
def push (l : Listener) (e : Option DeviceEvent) : Listener :=
  { l with queue := l.queue ++ e.toList }

end Listener

/-- The daemon and the clients that listen. -/
structure Watchers where
  daemon : Daemon
  listeners : KeyTable ℕ Listener

namespace Watchers

inductive Action where
  | daemon (reads : SerialReads) (a : Daemon.Action)
  | subscribe (l : ℕ)
  | listener (l : ℕ) (a : Listener.Action)

def step (s : Watchers) : Action → Option Watchers
  | .daemon reads a => (s.daemon.stepRead reads a).map fun r => ⟨r.1, s.listeners.map (·.push r.2)⟩
  | .subscribe l => match s.listeners.get l with
    | some _ => none
    | none => some { s with listeners := s.listeners.insert l ⟨.subscribed, []⟩ }
  | .listener l a => ((s.listeners.get l).bind fun c => c.step s.daemon.devices a).map fun c =>
    { s with listeners := s.listeners.insert l c }

def start : Watchers := ⟨.start, .empty⟩

/-- When every task is at rest, a client that has read every event was told
just the devices that the registry shows. -/
def Converged (s : Watchers) : Prop :=
  s.daemon.atRest = true → ∀ l view, s.listeners.get l = some ⟨.listening view, []⟩ →
    ∀ id, id ∈ view ↔ s.daemon.devices.shown id = true

end Watchers

end Rusbmux
