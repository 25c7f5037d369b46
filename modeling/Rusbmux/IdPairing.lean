import Rusbmux.NusbWatch
import Rusbmux.Errors

/-! The ids that `watch_network` of src/watcher/network.rs announces and takes
back, and where they pair up, there and in `watch_usb`. -/
namespace Rusbmux

/-- What comes of a service that was resolved: a panic when it has no address,
nothing when no pairing file is saved for it, or a device that is connected to. -/
inductive Resolution where
  | unreachable
  | skipped
  | found (opened : Except RusbmuxError Unit)

inductive ServiceEvent where
  | resolved (fullname : String) (resolution : Resolution)
  | removed (name : String)

/-- `name.split('@').next()`. -/
def macAddressOf (name : String) : String := String.ofList (name.toList.takeWhile (· ≠ '@'))

/-- `watch_network`; `streaming` holds until its stream has ended. `announced`
has the services that it has announced and `standing` those of them that were
not removed since. -/
structure NetworkWatch where
  streaming : Bool
  devicesIdMap : KeyTable String UInt64
  counter : DeviceIdCounter
  events : List (IdEvent String UInt64)
  departed : List UInt64
  announced : List String
  standing : List String

namespace NetworkWatch

inductive Action where
  | service (e : ServiceEvent)
  | takeElsewhere

def start : NetworkWatch := ⟨true, KeyTable.empty, .start, [], [], [], []⟩

def resolve (s : NetworkWatch) (macAddress : String) : Resolution → NetworkWatch
  | .unreachable => { s with streaming := false }
  | .skipped => s
  | .found opened =>
    let (id, counter) := s.counter.takeNewId
    match opened with
    | .ok _ => { s with
        counter := counter
        devicesIdMap := s.devicesIdMap.insert macAddress id
        events := s.events ++ [.connected macAddress id]
        announced := macAddress :: s.announced
        standing := macAddress :: s.standing }
    -- `try_stream!` ends with the error
    | .error _ => { s with counter := counter, streaming := false }

/-- The service is gone, whether or not the stream still tells of it. -/
def remove (s : NetworkWatch) (macAddress : String) : NetworkWatch :=
  let departed := s.departed ++ IdLog.idsOf s.events macAddress
  let standing := s.standing.filter (· ≠ macAddress)
  match s.streaming, s.devicesIdMap.get macAddress with
  -- the entry stays in the map
  | true, some id =>
    { s with events := s.events ++ [.disconnected id], departed := departed, standing := standing }
  | _, _ => { s with departed := departed, standing := standing }

def step (s : NetworkWatch) : Action → Option NetworkWatch
  | .service (.resolved fullname resolution) =>
    if s.streaming then some (s.resolve (macAddressOf fullname) resolution) else some s
  | .service (.removed name) => some (s.remove (macAddressOf name))
  | .takeElsewhere => some { s with counter := s.counter.takeNewId.2 }

/-- A service is announced again only when it was removed, under an id that was
not announced before, and removed again only when it was announced; none that
stands is removed once the stream has ended. -/
def TakesTurns (s : NetworkWatch) : Action → Prop
  | .service (.resolved fullname (.found (.ok _))) => s.streaming →
    macAddressOf fullname ∉ s.standing ∧ s.counter.value ∉ IdLog.ids s.events
  | .service (.removed name) =>
    if s.streaming then macAddressOf name ∈ s.announced → macAddressOf name ∈ s.standing
    else macAddressOf name ∉ s.standing
  | _ => True

def Paired (s : NetworkWatch) : Prop := IdLog.Paired s.events s.departed

structure PairedInv (s : NetworkWatch) : Prop where
  paired : IdLog.Paired s.events s.departed
  held : ∀ mac id, IdLog.Open s.events mac id → s.devicesIdMap.get mac = some id
  announced : ∀ mac, mac ∈ s.announced ↔ (s.devicesIdMap.get mac).isSome
  known : ∀ mac id, s.devicesIdMap.get mac = some id → .connected mac id ∈ s.events
  standing : ∀ mac, mac ∈ s.standing ↔ ∃ id, IdLog.Open s.events mac id

theorem pairedInv_start : PairedInv start where
  paired := IdLog.paired_nil
  held _ _ ho := nomatch ho.1
  announced _ := iff_of_false nofun nofun
  known := nofun
  standing _ := iff_of_false nofun fun ⟨_, ho⟩ => nomatch ho.1

variable {s t : NetworkWatch} {a : Action} {mac : String}

theorem resolve_found (s : NetworkWatch) (mac : String) : s.resolve mac (.found (.ok ())) = { s with
    counter := s.counter.takeNewId.2
    devicesIdMap := s.devicesIdMap.insert mac s.counter.value
    events := s.events ++ [.connected mac s.counter.value]
    announced := mac :: s.announced
    standing := mac :: s.standing } := rfl

theorem remove_telling {id : UInt64} (hs : s.streaming = true)
    (hget : s.devicesIdMap.get mac = some id) : s.remove mac = { s with
      events := s.events ++ [.disconnected id]
      departed := s.departed ++ IdLog.idsOf s.events mac
      standing := s.standing.filter (· ≠ mac) } := by
  simp only [remove, hs, hget]

theorem remove_silent (h : s.streaming = true → s.devicesIdMap.get mac = none) :
    s.remove mac = { s with
      departed := s.departed ++ IdLog.idsOf s.events mac
      standing := s.standing.filter (· ≠ mac) } := by
  cases hs : s.streaming with
  | false => simp only [remove, hs]
  | true => simp only [remove, hs, h hs]

theorem PairedInv.announce (h : PairedInv s) (hmac : mac ∉ s.standing)
    (hfresh : s.counter.value ∉ IdLog.ids s.events) :
    PairedInv (s.resolve mac (.found (.ok ()))) := by
  have hnone (id : UInt64) : ¬ IdLog.Open s.events mac id := by
    intro ho
    exact hmac ((h.standing mac).mpr ⟨id, ho⟩)
  have hopen (j : String) (i : UInt64) :
      IdLog.Open (s.events ++ [.connected mac s.counter.value]) j i ↔
        IdLog.Open s.events j i ∨ j = mac ∧ i = s.counter.value :=
    IdLog.open_connect_iff h.paired.sound hfresh
  rw [resolve_found]
  constructor
  case paired => exact h.paired.connect hnone hfresh
  case held =>
    intro j i ho
    rcases (hopen j i).mp ho with hold | ⟨rfl, rfl⟩
    · have hne : j ≠ mac := by
        rintro rfl
        exact hnone i hold
      exact (KeyTable.get_insert_of_ne _ _ hne).trans (h.held j i hold)
    · exact KeyTable.get_insert_self _ _ _
  case announced =>
    intro j
    rw [List.mem_cons, h.announced j, KeyTable.get_insert]
    split_ifs with hj
    · exact iff_of_true (Or.inl hj) rfl
    · exact or_iff_right hj
  case known =>
    intro j i hget
    rw [KeyTable.get_insert] at hget
    split_ifs at hget with hj
    · cases hget
      exact hj ▸ List.mem_append_right _ List.mem_cons_self
    · exact List.mem_append_left _ (h.known j i hget)
  case standing =>
    intro j
    rw [List.mem_cons, h.standing j]
    simp only [hopen, exists_or, exists_and_left, exists_eq, and_true]
    exact or_comm

/-- An announcement that leaves the ids paired had a service without an id. -/
theorem PairedInv.announced_alone (h : PairedInv s)
    (ht : (s.resolve mac (.found (.ok ()))).Paired) :
    mac ∉ s.standing ∧ s.counter.value ∉ IdLog.ids s.events := by
  rw [resolve_found, Paired] at ht
  have hfresh : s.counter.value ∉ IdLog.ids s.events := by
    have hnodup := ht.sound.fresh
    rw [IdLog.ids_connect, List.nodup_append_comm] at hnodup
    exact (List.nodup_cons.mp hnodup).1
  refine ⟨fun hmac => ?_, hfresh⟩
  obtain ⟨id, ho⟩ := (h.standing mac).mp hmac
  have hopen (i : UInt64) : IdLog.Open (s.events ++ [.connected mac s.counter.value]) mac i ↔
      IdLog.Open s.events mac i ∨ mac = mac ∧ i = s.counter.value :=
    IdLog.open_connect_iff h.paired.sound hfresh
  have hsame := ht.single mac id s.counter.value ((hopen id).mpr (Or.inl ho))
    ((hopen _).mpr (Or.inr ⟨rfl, rfl⟩))
  exact hfresh (hsame ▸ IdLog.mem_ids_iff.mpr ⟨mac, ho.1⟩)

/-- Where no id stands for a service, a removal of which nothing is told changes
nothing. -/
theorem PairedInv.removeSilent (h : PairedInv s) (hmac : mac ∉ s.standing) :
    PairedInv { s with
      departed := s.departed ++ IdLog.idsOf s.events mac
      standing := s.standing.filter (· ≠ mac) } := by
  have hnone (id : UInt64) : ¬ IdLog.Open s.events mac id := by
    intro ho
    exact hmac ((h.standing mac).mpr ⟨id, ho⟩)
  refine ⟨h.paired.departSilent hnone, h.held, h.announced, h.known, fun j => ?_⟩
  rw [List.mem_filter, h.standing j]
  refine and_iff_left_of_imp fun ⟨id, ho⟩ => decide_eq_true ?_
  rintro rfl
  exact hnone id ho

theorem PairedInv.removeStanding (h : PairedInv s) {id : UInt64}
    (ho : IdLog.Open s.events mac id) :
    PairedInv { s with
      events := s.events ++ [.disconnected id]
      departed := s.departed ++ IdLog.idsOf s.events mac
      standing := s.standing.filter (· ≠ mac) } := by
  refine ⟨h.paired.depart ho, fun j i hi => ?_, h.announced,
    fun j i hget => List.mem_append_left _ (h.known j i hget), fun j => ?_⟩
  · exact h.held j i (IdLog.open_disconnect_iff.mp hi).1
  · rw [List.mem_filter, h.standing j]
    simp only [IdLog.open_disconnect_iff]
    constructor
    · rintro ⟨⟨i, hi⟩, hne⟩
      refine ⟨i, hi, ?_⟩
      rintro rfl
      exact of_decide_eq_true hne (IdLog.key_unique h.paired.sound.fresh hi.1 ho.1)
    · rintro ⟨i, hi, hne⟩
      refine ⟨⟨i, hi⟩, decide_eq_true ?_⟩
      rintro rfl
      exact hne (h.paired.single j i id hi ho)

theorem PairedInv.remove (h : PairedInv s)
    (hturn : if s.streaming then mac ∈ s.announced → mac ∈ s.standing else mac ∉ s.standing) :
    PairedInv (s.remove mac) := by
  by_cases hmac : mac ∈ s.standing
  · obtain ⟨id, ho⟩ := (h.standing mac).mp hmac
    have hs : s.streaming = true := by
      by_contra hended
      rw [if_neg hended] at hturn
      exact hturn hmac
    rw [remove_telling hs (h.held mac id ho)]
    exact h.removeStanding ho
  · rw [remove_silent]
    · exact h.removeSilent hmac
    · intro hs
      rw [if_pos hs] at hturn
      rw [← Option.not_isSome_iff_eq_none, ← h.announced mac]
      exact fun hannounced => hmac (hturn hannounced)

/-- A removal that leaves the ids paired tells of the id that stands, if any. -/
theorem PairedInv.removed_turn (h : PairedInv s) (ht : (s.remove mac).Paired) :
    if s.streaming then mac ∈ s.announced → mac ∈ s.standing else mac ∉ s.standing := by
  split_ifs with hs
  · intro hannounced
    obtain ⟨id, hget⟩ := Option.isSome_iff_exists.mp ((h.announced mac).mp hannounced)
    rw [remove_telling hs hget, Paired] at ht
    -- the id in the map is taken back now, so it was not before
    have hnot := (ht.sound.follows s.events id [] rfl).2
    exact (h.standing mac).mpr ⟨id, h.known mac id hget, hnot⟩
  · intro hmac
    obtain ⟨id, ho⟩ := (h.standing mac).mp hmac
    rw [remove_silent fun hstreaming => absurd hstreaming hs, Paired] at ht
    apply ho.2
    exact (ht.exact id).mpr (List.mem_append_right _ (IdLog.mem_idsOf_iff.mpr ho.1))

theorem PairedInv.step (h : PairedInv s) (ht : s.step a = some t) :
    (s.TakesTurns a → PairedInv t) ∧ (t.Paired → s.TakesTurns a) := by
  cases a with
  | takeElsewhere =>
    cases ht
    exact ⟨fun _ => ⟨h.paired, h.held, h.announced, h.known, h.standing⟩, fun _ => trivial⟩
  | service e => cases e with
    | removed name =>
      cases ht
      exact ⟨h.remove, h.removed_turn⟩
    | resolved fullname resolution =>
      simp only [NetworkWatch.step] at ht
      split_ifs at ht with hs
      · cases ht
        cases resolution with
        | unreachable | skipped =>
          exact ⟨fun _ => ⟨h.paired, h.held, h.announced, h.known, h.standing⟩, fun _ => trivial⟩
        | found opened => cases opened with
          | error e =>
            exact ⟨fun _ => ⟨h.paired, h.held, h.announced, h.known, h.standing⟩, fun _ => trivial⟩
          | ok _ =>
            exact ⟨fun hturn => h.announce (hturn hs).1 (hturn hs).2,
              fun hp _ => h.announced_alone hp⟩
      · cases ht
        refine ⟨fun _ => h, fun _ => ?_⟩
        rcases resolution with _ | _ | e | u
        · trivial
        · trivial
        · trivial
        · exact fun hstreaming => absurd hstreaming hs

end NetworkWatch

/-- For every run of `watch_usb` in which the devices it lists were on the bus at
the subscription, the ids pair up in every state; and in every run of
`watch_network` they do so exactly as long as announcements and removals of a
service take turns. -/
theorem ids_paired {DeviceId : Type} [DecidableEq DeviceId] (hashId : DeviceId → UInt64)
    (as : List (NusbWatch.Action DeviceId)) (bs : List NetworkWatch.Action) :
    (StepSystem.EveryStep (NusbWatch.step hashId) (NusbWatch.ListsSubscribed hashId)
        NusbWatch.start as →
      StepSystem.EveryState (NusbWatch.step hashId) NusbWatch.Paired NusbWatch.start as) ∧
    (StepSystem.EveryState NetworkWatch.step NetworkWatch.Paired NetworkWatch.start bs ↔
      StepSystem.EveryStep NetworkWatch.step NetworkWatch.TakesTurns NetworkWatch.start bs) := by
  constructor
  · intro h
    have hinv := StepSystem.everyState_of_everyStep
      (fun _ _ _ (hs : NusbWatch.PairedInv hashId _) hlists ht => hs.step hlists ht)
      NusbWatch.pairedInv_start h
    exact hinv.mono fun _ hs => hs.paired
  · exact StepSystem.everyState_iff_everyStep (fun _ _ _ hs ht => hs.step ht)
      (fun _ hs => hs.paired) NetworkWatch.pairedInv_start bs

/-- A device that is there from the start, and one that comes and goes later. -/
theorem ids_paired_plugged :
    StepSystem.EveryState (NusbWatch.step UInt64.ofNat) NusbWatch.Paired NusbWatch.start
      [.arrive ⟨3, APPLE_VID⟩, .subscribe, .list (some [⟨3, APPLE_VID⟩]), .arrive ⟨4, APPLE_VID⟩,
        .announce, .take, .leave 3, .leave 4, .take, .take] :=
  (ids_paired UInt64.ofNat _ []).1 (by decide)

/-- A device that comes between the subscription and the list is announced twice,
and so is a service that is resolved twice. -/
theorem ids_not_paired :
    (¬ ∀ (hashId : ℕ → UInt64) (as : List _),
      StepSystem.EveryState (NusbWatch.step hashId) NusbWatch.Paired NusbWatch.start as) ∧
      ¬ ∀ as,
        StepSystem.EveryState NetworkWatch.step NetworkWatch.Paired NetworkWatch.start as := by
  constructor
  · intro h
    have hpaired := (h UInt64.ofNat [.subscribe, .arrive ⟨3, APPLE_VID⟩,
      .list (some [⟨3, APPLE_VID⟩]), .announce, .take]).last rfl
    have hsame := hpaired.single 3 1 2 (by decide) (by decide)
    exact absurd hsame (by decide)
  · intro h
    have hpaired := (h [.service (.resolved "aa:bb@fe80" (.found (.ok ()))),
      .service (.resolved "aa:bb@fe80" (.found (.ok ())))]).last rfl
    have hsame := hpaired.single "aa:bb" 1 2 (by decide) (by decide)
    exact absurd hsame (by decide)

end Rusbmux
