import Rusbmux.IdLog
import Rusbmux.Registry
import Rusbmux.StepSystem
import Mathlib.Algebra.GroupWithZero.Nat
import Mathlib.Data.Set.Function

/-! The watcher of src/usb_backend/rusb.rs that polls the bus, and the ids it
announces the devices under. -/
namespace Rusbmux

/-- `DEVICE_ID_COUNTER`, with all ids that `take_new_id` has returned, the last
one first. -/
structure DeviceIdCounter where
  value : UInt64
  taken : List UInt64
  counts : (value :: taken).IsChain fun next last => next = last+1

namespace DeviceIdCounter

def start : DeviceIdCounter := ⟨1, [], .singleton _⟩

def takeNewId (c : DeviceIdCounter) : UInt64 × DeviceIdCounter :=
  (c.value, ⟨c.value+1, c.value :: c.taken, List.isChain_cons_cons.mpr ⟨rfl, c.counts⟩⟩)

theorem value_of_chain {v x : UInt64} {i : ℕ} : ∀ {xs : List UInt64},
    (v :: xs).IsChain (fun next last => next = last+1) → xs[i]? = some x →
      v = x+UInt64.ofNat (i+1) := by
  induction i generalizing v with
  | zero =>
    intro xs h hx
    cases xs with
    | nil => cases hx
    | cons y ys =>
      cases hx
      exact (List.isChain_cons_cons.mp h).1
  | succ i ih =>
    intro xs h hx
    cases xs with
    | nil => cases hx
    | cons y ys =>
      obtain ⟨hv, hchain⟩ := List.isChain_cons_cons.mp h
      rw [hv, ih hchain hx, UInt64.add_assoc, ← UInt64.ofNat_one, ← UInt64.ofNat_add]

/-- The counter comes round to an id after 2^64 of them. -/
theorem fresh_of_chain {v : UInt64} {xs : List UInt64}
    (h : (v :: xs).IsChain fun next last => next = last+1) (hlen : xs.length < 2^64) :
    v ∉ xs := by
  intro hv
  obtain ⟨i, hi⟩ := List.getElem?_of_mem hv
  have hlt : i < xs.length := (List.getElem?_eq_some_iff.mp hi).1
  have hsum := value_of_chain h hi
  have hzero : UInt64.ofNat (i+1) = 0 := UInt64.left_eq_add.mp hsum
  have hmod := congrArg UInt64.toNat hzero
  rw [UInt64.toNat_ofNat', UInt64.toNat_zero, Nat.mod_eq_of_lt (by omega)] at hmod
  omega

theorem nodup_of_length (c : DeviceIdCounter) (h : c.taken.length ≤ 2^64) : c.taken.Nodup := by
  obtain ⟨value, taken, counts⟩ := c
  induction taken generalizing value with
  | nil => exact List.nodup_nil
  | cons v taken ih =>
    have hchain := (List.isChain_cons_cons.mp counts).2
    have hlt : taken.length < 2^64 := h
    exact List.nodup_cons.mpr ⟨fresh_of_chain hchain hlt, ih v hchain (Nat.le_of_lt hlt)⟩

theorem length_le_of_nodup {ids : List UInt64} (h : ids.Nodup) : ids.length ≤ 2^64 := by
  have hnats : (ids.map UInt64.toNat).Nodup := h.map fun _ _ => UInt64.toNat_inj.mp
  have hsubset : ids.map UInt64.toNat ⊆ List.range (2^64) := by
    intro n hn
    obtain ⟨id, -, rfl⟩ := List.mem_map.mp hn
    exact List.mem_range.mpr id.toNat_lt
  have hle := (List.subperm_of_subset hnats hsubset).length_le
  rwa [List.length_map, List.length_range] at hle

end DeviceIdCounter

structure RusbDevice where
  busNumber : UInt8
  address : UInt8
  deriving DecidableEq, Repr

/-- `opaque_id`. -/
def RusbDevice.opaqueId (dev : RusbDevice) : UInt64 :=
  dev.busNumber.toUInt64 <<< 8 ||| dev.address.toUInt64

/-- A device of `rusb::devices`, with the vendor of its descriptor, if that can
be read. -/
structure EnumeratedDevice where
  device : RusbDevice
  vendorId : Option UInt16
  deriving DecidableEq, Repr

/-- The devices that the polling goes by. -/
def EnumeratedDevice.isApple (dev : EnumeratedDevice) : Bool := dev.vendorId == some APPLE_VID

namespace PollingStream

inductive UsbEvent where
  | arrived (dev : RusbDevice)
  | left (dev : RusbDevice)
  deriving DecidableEq, Repr

def UsbEvent.opaqueId : UsbEvent → UInt64
  | arrived dev | left dev => dev.opaqueId

end PollingStream

structure PollingStream where
  known : KeyTable UInt64 RusbDevice
  pending : List PollingStream.UsbEvent

namespace PollingStream

def new : PollingStream := ⟨KeyTable.empty, []⟩

/-- The map that `next` builds of an enumeration. -/
def current (devices : List EnumeratedDevice) : KeyTable UInt64 RusbDevice :=
  devices.foldl
    (fun t dev => if dev.isApple then t.insert dev.device.opaqueId dev.device else t)
    KeyTable.empty

/-- The devices of one map that the other lacks. -/
def missing (t other : KeyTable UInt64 RusbDevice) : List RusbDevice :=
  (t.entries.filter fun e => (other.get e.1).isNone).map Prod.snd

/-- `next` from where it enumerates, up to the first `pop_front` behind that. The
iterations give `arrivals` and `removals`, each in an order of its own. -/
def enumerate (s : PollingStream) (devices : List EnumeratedDevice)
    (arrivals removals : List RusbDevice) : Option PollingStream :=
  if arrivals.Perm (missing (current devices) s.known) ∧
      removals.Perm (missing s.known (current devices)) then
    some ⟨current devices, arrivals.map .arrived ++ removals.map .left⟩
  else none

end PollingStream

/-- `watch_devices` over the polling, with the events it has yielded; a device
is named in them by its opaque id. `last` has the opaque ids of the last
enumeration. -/
structure RusbWatch where
  stream : PollingStream
  devicesIdMap : KeyTable UInt64 UInt64
  counter : DeviceIdCounter
  events : List (IdEvent UInt64 UInt64)
  last : List UInt64

namespace RusbWatch

open PollingStream

inductive Action where
  /-- `rusb::devices` is called, and fails on `none`. -/
  | enumerate (devices : Option (List EnumeratedDevice)) (arrivals removals : List RusbDevice)
  /-- The first pending event is taken. -/
  | next
  /-- Another task takes an id. -/
  | takeElsewhere

def start : RusbWatch := ⟨PollingStream.new, KeyTable.empty, .start, [], []⟩

/-- The body of the loop of `watch_devices`. -/
def handle (s : RusbWatch) : PollingStream.UsbEvent → RusbWatch
  | .arrived dev =>
    let (id, counter) := s.counter.takeNewId
    { s with
      counter := counter
      devicesIdMap := s.devicesIdMap.insert dev.opaqueId id
      events := s.events ++ [.connected dev.opaqueId id] }
  | .left dev => match s.devicesIdMap.get dev.opaqueId with
    | some id => { s with
        devicesIdMap := s.devicesIdMap.remove dev.opaqueId
        events := s.events ++ [.disconnected id] }
    | none => s

def step (s : RusbWatch) : Action → Option RusbWatch
  | .enumerate devices arrivals removals => match s.stream.pending, devices with
    | _ :: _, _ => none
    | [], none => some s
    | [], some devices =>
      (s.stream.enumerate devices arrivals removals).map fun stream => { s with
        stream := stream
        last := (devices.filter EnumeratedDevice.isApple).map fun dev => dev.device.opaqueId }
  | .next => match s.stream.pending with
    | [] => none
    | e :: pending => some ({ s with stream := { s.stream with pending := pending } }.handle e)
  | .takeElsewhere => some { s with counter := s.counter.takeNewId.2 }

/-- What the events say of the bus. -/
structure Replays (s : RusbWatch) : Prop where
  fresh : ∀ id ∈ IdLog.ids s.events, s.counter.taken.count id = 1
  sound : IdLog.Sound s.events
  bijection : s.stream.pending = [] → ∃ f : UInt64 → UInt64,
    Set.BijOn f {k | k ∈ s.last} {id | ∃ k, IdLog.Open s.events k id} ∧
      ∀ k ∈ s.last, IdLog.Open s.events k (f k)

end RusbWatch

namespace PollingStream

/-- A map with each device under its own opaque id. -/
def Keyed (t : KeyTable UInt64 RusbDevice) : Prop :=
  ∀ k dev, t.get k = some dev → dev.opaqueId = k

theorem current_append (devices : List EnumeratedDevice) (dev : EnumeratedDevice) :
    current (devices ++ [dev]) = if dev.isApple
      then (current devices).insert dev.device.opaqueId dev.device else current devices :=
  List.foldl_concat ..

theorem keyed_current (devices : List EnumeratedDevice) : Keyed (current devices) := by
  induction devices using List.reverseRecOn with
  | nil =>
    intro k dev h
    cases h
  | append_singleton devices e ih =>
    intro k dev h
    rw [current_append] at h
    split_ifs at h
    · rw [KeyTable.get_insert] at h
      split_ifs at h with hk
      · cases h
        exact hk.symm
      · exact ih k dev h
    · exact ih k dev h

theorem isSome_current_iff (devices : List EnumeratedDevice) (k : UInt64) :
    ((current devices).get k).isSome ↔
      k ∈ (devices.filter EnumeratedDevice.isApple).map fun dev => dev.device.opaqueId := by
  induction devices using List.reverseRecOn with
  | nil => exact iff_of_false nofun nofun
  | append_singleton devices e ih =>
    rw [current_append, List.filter_append, List.map_append, List.mem_append, ← ih]
    cases happle : e.isApple with
    | false => simp [happle]
    | true =>
      by_cases hk : k = e.device.opaqueId
      · simp [happle, hk]
      · simp [happle, hk, KeyTable.get_insert]

variable {t other : KeyTable UInt64 RusbDevice}

theorem mem_missing_iff (h : Keyed t) (dev : RusbDevice) :
    dev ∈ missing t other ↔ t.get dev.opaqueId = some dev ∧ other.get dev.opaqueId = none := by
  simp only [missing, List.mem_map, List.mem_filter, Option.isNone_iff_eq_none]
  constructor
  · rintro ⟨⟨k, d⟩, ⟨hmem, hnone⟩, rfl⟩
    have hget := (t.get_eq_some_iff k d).mpr hmem
    have hkey := h k d hget
    subst hkey
    exact ⟨hget, hnone⟩
  · rintro ⟨hget, hnone⟩
    exact ⟨(dev.opaqueId, dev), ⟨(t.get_eq_some_iff _ _).mp hget, hnone⟩, rfl⟩

theorem nodup_missing (h : Keyed t) : ((missing t other).map RusbDevice.opaqueId).Nodup := by
  have hkeys : (missing t other).map RusbDevice.opaqueId =
      (t.entries.filter fun e => (other.get e.1).isNone).map Prod.fst := by
    rw [missing, List.map_map]
    apply List.map_congr_left
    intro e he
    exact h e.1 e.2 ((t.get_eq_some_iff _ _).mpr (List.mem_of_mem_filter he))
  rw [hkeys]
  exact t.nodup.sublist (List.filter_sublist.map Prod.fst)

/-- What an enumeration leaves to be done. -/
structure Differs (s s' : PollingStream) (devices : List EnumeratedDevice) : Prop where
  known : s'.known = current devices
  nodup : (s'.pending.map UsbEvent.opaqueId).Nodup
  arrived : ∀ dev, .arrived dev ∈ s'.pending ↔
    (current devices).get dev.opaqueId = some dev ∧ s.known.get dev.opaqueId = none
  left : ∀ dev, .left dev ∈ s'.pending ↔
    s.known.get dev.opaqueId = some dev ∧ (current devices).get dev.opaqueId = none

theorem differs_of_enumerate {s s' : PollingStream} {devices : List EnumeratedDevice}
    {arrivals removals : List RusbDevice} (hs : Keyed s.known)
    (h : s.enumerate devices arrivals removals = some s') : Differs s s' devices := by
  unfold enumerate at h
  split_ifs at h with hperm
  cases h
  obtain ⟨harrivals, hremovals⟩ := hperm
  have hcurrent := keyed_current devices
  have harrived (dev : RusbDevice) : dev ∈ arrivals ↔
      (current devices).get dev.opaqueId = some dev ∧ s.known.get dev.opaqueId = none := by
    rw [harrivals.mem_iff, mem_missing_iff hcurrent]
  have hleft (dev : RusbDevice) : dev ∈ removals ↔
      s.known.get dev.opaqueId = some dev ∧ (current devices).get dev.opaqueId = none := by
    rw [hremovals.mem_iff, mem_missing_iff hs]
  have hkeys : (arrivals.map UsbEvent.arrived ++ removals.map UsbEvent.left).map
      UsbEvent.opaqueId = arrivals.map RusbDevice.opaqueId ++ removals.map RusbDevice.opaqueId := by
    rw [List.map_append, List.map_map, List.map_map]
    rfl
  refine ⟨rfl, ?_, fun dev => ?_, fun dev => ?_⟩
  · rw [hkeys, List.nodup_append]
    refine ⟨(harrivals.map _).nodup_iff.mpr (nodup_missing hcurrent),
      (hremovals.map _).nodup_iff.mpr (nodup_missing hs), ?_⟩
    rintro k hk j hj rfl
    obtain ⟨dev, hdev, rfl⟩ := List.mem_map.mp hk
    obtain ⟨dev', hdev', hkey⟩ := List.mem_map.mp hj
    have hsome := ((harrived dev).mp hdev).1
    have hnone := ((hleft dev').mp hdev').2
    rw [hkey, hsome] at hnone
    cases hnone
  · simp [← harrived]
  · simp [← hleft]

/-- An enumeration that says nothing of a device leaves it as it was. -/
theorem Differs.isSome_iff {s s' : PollingStream} {devices : List EnumeratedDevice}
    (hd : Differs s s' devices) (hs : Keyed s.known) {k : UInt64}
    (hk : k ∉ s'.pending.map UsbEvent.opaqueId) :
    (s.known.get k).isSome ↔ (s'.known.get k).isSome := by
  rw [hd.known]
  cases hold : s.known.get k with
  | none =>
    cases hnew : (current devices).get k with
    | none => rfl
    | some dev =>
      have hkey := keyed_current devices k dev hnew
      subst hkey
      exact absurd (List.mem_map.mpr ⟨_, (hd.arrived dev).mpr ⟨hnew, hold⟩, rfl⟩) hk
  | some dev =>
    cases hnew : (current devices).get k with
    | some d => exact Iff.rfl
    | none =>
      have hkey := hs k dev hold
      subst hkey
      exact absurd (List.mem_map.mpr ⟨_, (hd.left dev).mpr ⟨hold, hnew⟩, rfl⟩) hk

end PollingStream

namespace RusbWatch

open PollingStream

/-- What is known of the bus, up to the events that are pending. -/
structure ReplaysInv (s : RusbWatch) : Prop where
  keyed : Keyed s.stream.known
  last : ∀ k, k ∈ s.last ↔ (s.stream.known.get k).isSome
  sound : IdLog.Sound s.events
  holds : IdLog.Holds s.devicesIdMap s.events
  own : ∀ id ∈ IdLog.ids s.events, id ∈ s.counter.taken
  nodup : (s.stream.pending.map PollingStream.UsbEvent.opaqueId).Nodup
  arrived : ∀ dev, .arrived dev ∈ s.stream.pending →
    (s.stream.known.get dev.opaqueId).isSome ∧ s.devicesIdMap.get dev.opaqueId = none
  left : ∀ dev, .left dev ∈ s.stream.pending →
    s.stream.known.get dev.opaqueId = none ∧ (s.devicesIdMap.get dev.opaqueId).isSome
  settled : ∀ k, k ∉ s.stream.pending.map PollingStream.UsbEvent.opaqueId →
    ((s.devicesIdMap.get k).isSome ↔ (s.stream.known.get k).isSome)

theorem replaysInv_start : ReplaysInv start where
  keyed := nofun
  last _ := iff_of_false nofun nofun
  sound := IdLog.sound_nil
  holds := IdLog.holds_empty
  own := nofun
  nodup := List.nodup_nil
  arrived := nofun
  left := nofun
  settled _ _ := Iff.rfl

variable {s t : RusbWatch} {a : Action}

theorem ReplaysInv.bijection (h : ReplaysInv s) (hp : s.stream.pending = []) :
    ∃ f : UInt64 → UInt64,
      Set.BijOn f {k | k ∈ s.last} {id | ∃ k, IdLog.Open s.events k id} ∧
        ∀ k ∈ s.last, IdLog.Open s.events k (f k) := by
  have hsettled (k : UInt64) : k ∈ s.last ↔ (s.devicesIdMap.get k).isSome := by
    rw [h.last, h.settled k]
    rw [hp]
    exact List.not_mem_nil
  have hopen (k : UInt64) (hk : k ∈ s.last) :
      IdLog.Open s.events k ((s.devicesIdMap.get k).getD 0) := by
    obtain ⟨id, hid⟩ := Option.isSome_iff_exists.mp ((hsettled k).mp hk)
    rw [hid]
    exact (h.holds k id).mp hid
  refine ⟨fun k => (s.devicesIdMap.get k).getD 0, ⟨?_, ?_, ?_⟩, hopen⟩
  · intro k hk
    exact ⟨k, hopen k hk⟩
  · intro k hk j hj heq
    have hkj := (hopen k hk).1
    dsimp only at heq
    rw [heq] at hkj
    exact IdLog.key_unique h.sound.fresh hkj (hopen j hj).1
  · rintro id ⟨k, ho⟩
    have hget := (h.holds k id).mpr ho
    refine ⟨k, (hsettled k).mpr (by rw [hget]; rfl), ?_⟩
    dsimp only
    rw [hget, Option.getD_some]

theorem ReplaysInv.replays (h : ReplaysInv s) (hlen : s.counter.taken.length ≤ 2^64) :
    Replays s where
  fresh id hid :=
    List.count_eq_one_of_mem (s.counter.nodup_of_length hlen) (h.own id hid)
  sound := h.sound
  bijection := h.bijection

/-- A new enumeration, with nothing pending of the last one. -/
theorem ReplaysInv.enumerate (h : ReplaysInv s) (hp : s.stream.pending = [])
    {devices : List EnumeratedDevice} {stream : PollingStream}
    (hd : Differs s.stream stream devices) :
    ReplaysInv { s with
      stream := stream
      last := (devices.filter EnumeratedDevice.isApple).map fun dev => dev.device.opaqueId } := by
  -- nothing is pending, so the map and the bus agree on every key
  have hsettled (k : UInt64) :
      (s.devicesIdMap.get k).isSome ↔ (s.stream.known.get k).isSome := by
    apply h.settled k
    rw [hp]
    exact List.not_mem_nil
  constructor
  case keyed =>
    rw [hd.known]
    exact keyed_current devices
  case last =>
    intro k
    rw [hd.known, isSome_current_iff]
  case sound => exact h.sound
  case holds => exact h.holds
  case own => exact h.own
  case nodup => exact hd.nodup
  case arrived =>
    intro dev hdev
    obtain ⟨hnew, hold⟩ := (hd.arrived dev).mp hdev
    rw [hd.known, hnew]
    refine ⟨rfl, ?_⟩
    rw [← Option.not_isSome_iff_eq_none, hsettled, hold]
    nofun
  case left =>
    intro dev hdev
    obtain ⟨hold, hnew⟩ := (hd.left dev).mp hdev
    rw [hd.known]
    refine ⟨hnew, ?_⟩
    rw [hsettled, hold]
    rfl
  case settled =>
    intro k hk
    rw [hsettled, hd.isSome_iff h.keyed hk]

/-- The first pending event is of no other pending event's device. -/
theorem ReplaysInv.tail (h : ReplaysInv s) {e : PollingStream.UsbEvent}
    {pending : List PollingStream.UsbEvent} (hp : s.stream.pending = e :: pending) :
    (pending.map PollingStream.UsbEvent.opaqueId).Nodup ∧
      (∀ f ∈ pending, f ∈ s.stream.pending ∧ f.opaqueId ≠ e.opaqueId) ∧
      ∀ k, k ∉ pending.map PollingStream.UsbEvent.opaqueId → k ≠ e.opaqueId →
        ((s.devicesIdMap.get k).isSome ↔ (s.stream.known.get k).isSome) := by
  have hnodup := h.nodup
  rw [hp, List.map_cons, List.nodup_cons] at hnodup
  refine ⟨hnodup.2, fun f hf => ⟨hp ▸ List.mem_cons_of_mem e hf, fun heq => ?_⟩, fun k hk hne => ?_⟩
  · exact hnodup.1 (List.mem_map.mpr ⟨f, hf, heq⟩)
  · apply h.settled k
    rw [hp, List.map_cons, List.mem_cons]
    exact fun hor => hor.elim hne hk

/-- A device that is announced under an id that was not taken before. -/
theorem ReplaysInv.arrive (h : ReplaysInv s) {dev : RusbDevice}
    {pending : List PollingStream.UsbEvent} (hp : s.stream.pending = .arrived dev :: pending)
    (hfresh : s.counter.value ∉ s.counter.taken) :
    ReplaysInv { s with
      stream := { s.stream with pending := pending }
      devicesIdMap := s.devicesIdMap.insert dev.opaqueId s.counter.value
      counter := s.counter.takeNewId.2
      events := s.events ++ [.connected dev.opaqueId s.counter.value] } := by
  obtain ⟨hnodup, hother, hsettled⟩ := h.tail hp
  obtain ⟨hknown, hnone⟩ := h.arrived dev (hp ▸ List.mem_cons_self)
  have hid : s.counter.value ∉ IdLog.ids s.events := fun hmem => hfresh (h.own _ hmem)
  constructor
  case keyed => exact h.keyed
  case last => exact h.last
  case sound => exact h.sound.connect hid
  case holds => exact h.holds.connect h.sound hnone hid
  case own =>
    intro id hmem
    rw [IdLog.ids_connect, List.mem_append, List.mem_singleton] at hmem
    exact List.mem_cons.mpr (hmem.symm.imp_right (h.own id))
  case nodup => exact hnodup
  case arrived =>
    intro d hd
    have hne : d.opaqueId ≠ dev.opaqueId := (hother _ hd).2
    rw [KeyTable.get_insert_of_ne _ _ hne]
    exact h.arrived d (hother _ hd).1
  case left =>
    intro d hd
    have hne : d.opaqueId ≠ dev.opaqueId := (hother _ hd).2
    rw [KeyTable.get_insert_of_ne _ _ hne]
    exact h.left d (hother _ hd).1
  case settled =>
    intro k hk
    by_cases hne : k = dev.opaqueId
    · subst hne
      rw [KeyTable.get_insert_self]
      exact iff_of_true rfl hknown
    · rw [KeyTable.get_insert_of_ne _ _ hne]
      exact hsettled k hk hne

/-- A device that left, and whose id is taken back. -/
theorem ReplaysInv.leave (h : ReplaysInv s) {dev : RusbDevice}
    {pending : List PollingStream.UsbEvent} (hp : s.stream.pending = .left dev :: pending)
    {id : UInt64} (hid : s.devicesIdMap.get dev.opaqueId = some id) :
    ReplaysInv { s with
      stream := { s.stream with pending := pending }
      devicesIdMap := s.devicesIdMap.remove dev.opaqueId
      events := s.events ++ [.disconnected id] } := by
  obtain ⟨hnodup, hother, hsettled⟩ := h.tail hp
  obtain ⟨hknown, -⟩ := h.left dev (hp ▸ List.mem_cons_self)
  constructor
  case keyed => exact h.keyed
  case last => exact h.last
  case sound => exact h.sound.disconnect ((h.holds _ _).mp hid)
  case holds => exact h.holds.disconnect h.sound hid
  case own =>
    intro i hi
    rw [IdLog.ids_disconnect] at hi
    exact h.own i hi
  case nodup => exact hnodup
  case arrived =>
    intro d hd
    have hne : d.opaqueId ≠ dev.opaqueId := (hother _ hd).2
    rw [KeyTable.get_remove_of_ne _ hne]
    exact h.arrived d (hother _ hd).1
  case left =>
    intro d hd
    have hne : d.opaqueId ≠ dev.opaqueId := (hother _ hd).2
    rw [KeyTable.get_remove_of_ne _ hne]
    exact h.left d (hother _ hd).1
  case settled =>
    intro k hk
    by_cases hne : k = dev.opaqueId
    · subst hne
      rw [KeyTable.get_remove_self, hknown]
      exact Iff.rfl
    · rw [KeyTable.get_remove_of_ne _ hne]
      exact hsettled k hk hne

theorem ReplaysInv.next (h : ReplaysInv s) {e : PollingStream.UsbEvent}
    {pending : List PollingStream.UsbEvent} (hp : s.stream.pending = e :: pending)
    (hlen : ({ s with stream := { s.stream with pending := pending } }.handle
      e).counter.taken.length ≤ 2^64) :
    ReplaysInv ({ s with stream := { s.stream with pending := pending } }.handle e) := by
  cases e with
  | arrived dev => exact h.arrive hp (DeviceIdCounter.fresh_of_chain s.counter.counts hlen)
  | left dev =>
    -- a device that left was announced, so there is an id to take back
    obtain ⟨-, hsome⟩ := h.left dev (hp ▸ List.mem_cons_self)
    obtain ⟨id, hid⟩ := Option.isSome_iff_exists.mp hsome
    simp only [handle, hid]
    exact h.leave hp hid

theorem taken_handle_le (s : RusbWatch) (e : PollingStream.UsbEvent) :
    s.counter.taken.length ≤ (s.handle e).counter.taken.length := by
  cases e with
  | arrived dev => exact Nat.le_succ _
  | left dev =>
    simp only [handle]
    split
    · exact Nat.le_refl _
    · exact Nat.le_refl _

/-- A step keeps to the bus as long as the counter has not come round. -/
theorem replaysInv_step (h : s.counter.taken.length ≤ 2^64 → ReplaysInv s)
    (ht : s.step a = some t) : t.counter.taken.length ≤ 2^64 → ReplaysInv t := by
  intro hlen
  cases a with
  | enumerate devices arrivals removals =>
    simp only [RusbWatch.step] at ht
    cases hp : s.stream.pending with
    | cons e pending =>
      rw [hp] at ht
      cases ht
    | nil =>
      rw [hp] at ht
      cases devices with
      | none =>
        cases ht
        exact h hlen
      | some devices =>
        obtain ⟨stream, hstream, rfl⟩ := Option.map_eq_some_iff.mp ht
        have hs := h hlen
        exact hs.enumerate hp (differs_of_enumerate hs.keyed hstream)
  | next =>
    simp only [RusbWatch.step] at ht
    cases hp : s.stream.pending with
    | nil =>
      rw [hp] at ht
      cases ht
    | cons e pending =>
      rw [hp] at ht
      cases ht
      have hle := taken_handle_le { s with stream := { s.stream with pending := pending } } e
      exact (h (Nat.le_trans hle hlen)).next hp hlen
  | takeElsewhere =>
    cases ht
    have hs := h (Nat.le_of_succ_le hlen)
    exact ⟨hs.keyed, hs.last, hs.sound, hs.holds,
      fun id hid => List.mem_cons_of_mem _ (hs.own id hid), hs.nodup, hs.arrived, hs.left,
      hs.settled⟩

/-- For every sequence of enumerations, and ids that other tasks take at any
time: the events replay the bus, in every state up to the 2^64-th id. -/
theorem replays_bus (as : List Action) :
    StepSystem.EveryState step
      (fun s => s.counter.taken.length ≤ 2^64 → Replays s) start as := by
  have hinv : StepSystem.EveryState step
      (fun s => s.counter.taken.length ≤ 2^64 → ReplaysInv s) start as :=
    StepSystem.everyState_of_everyStep (fun _ _ _ hs _ ht => replaysInv_step hs ht)
      (fun _ => replaysInv_start) (StepSystem.everyStep_true start as)
  exact hinv.mono fun _ hs hlen => (hs hlen).replays hlen

/-- A device that is plugged in and out again, each seen by an enumeration. -/
def replug : List Action :=
  [.enumerate (some [⟨⟨1, 5⟩, some APPLE_VID⟩]) [⟨1, 5⟩] [], .next,
    .enumerate (some []) [] [⟨1, 5⟩], .next]

theorem after_replug (hs : s.stream = PollingStream.new) : ∃ t,
    StepSystem.after step s replug = some t ∧ t.stream = PollingStream.new ∧
      (IdLog.ids t.events).length = (IdLog.ids s.events).length+1 := by
  obtain ⟨stream, devicesIdMap, counter, events, last⟩ := s
  cases hs
  refine ⟨⟨PollingStream.new, (devicesIdMap.insert 261 counter.value).remove 261,
    counter.takeNewId.2, events ++ [.connected 261 counter.value] ++ [.disconnected counter.value],
    []⟩, rfl, rfl, ?_⟩
  rw [IdLog.ids_disconnect, IdLog.ids_connect, List.length_append, List.length_singleton]

/-- It may come and go any number of times. -/
theorem after_replugs (n : ℕ) : ∃ as t, StepSystem.after step start as = some t ∧
    t.stream = PollingStream.new ∧ (IdLog.ids t.events).length = n := by
  induction n with
  | zero => exact ⟨[], start, rfl, rfl, rfl⟩
  | succ n ih =>
    obtain ⟨as, s, has, hs, hlen⟩ := ih
    obtain ⟨t, ht, hstream, hids⟩ := after_replug hs
    refine ⟨as ++ replug, t, ?_, hstream, by rw [hids, hlen]⟩
    rw [StepSystem.after_append, has]
    exact ht

/-- After as many replugs as there are ids, the next one comes under an id that
was announced before. -/
theorem replugs_not_replayed : ¬ ∀ as, StepSystem.EveryState step Replays start as := by
  intro h
  obtain ⟨as, t, ht, -, hlen⟩ := after_replugs (2^64+1)
  have hnodup := ((h as).last ht).sound.fresh
  have hle := DeviceIdCounter.length_le_of_nodup hnodup
  omega

end RusbWatch

end Rusbmux
