import Rusbmux.Announced

/-! The Attached and Detached messages that each listening client is sent, in
their order. -/
namespace Rusbmux

/-- The message that a client's step writes. -/
def Listener.writes (devices : Registry) (c : Listener) : Listener.Action → Option DeviceEvent
  | .visit id reads => if devices.listedRead reads id then some (.attached id) else none
  | .recv => match c.queue with
    | .attached id :: _ => if (devices.get id).isSome then some (.attached id) else none
    | .detached id :: _ => some (.detached id)
    | [] => none
  | _ => none

/-- A client passes no device whose Detached is still to come, is told by the
snapshot of no device that came in meanwhile or whose Attached is still to
come, and reads an Attached while the device is there. -/
def Listener.InTurn (d : Daemon) (c : Listener) : Listener.Action → Prop
  | .beginSnapshot | .endSnapshot => ∀ id, c.phase.unread id → ¬d.WillDetach id
  | .visit id reads => d.devices.listedRead reads id = true → c.phase.unread id ∧ ¬d.Excuses id
  | .recv => ∀ id rest, c.queue = .attached id :: rest → (d.devices.get id).isSome = true

/-- The daemon and its clients, with what each client has been sent. -/
structure ListenWire where
  watchers : Watchers
  sent : ℕ → List DeviceEvent

namespace ListenWire

section

variable (s : ListenWire)

/-- What a step writes to a client. -/
def written (l : ℕ) : Watchers.Action → List DeviceEvent
  | .listener k a => if k = l then ((s.watchers.listeners.get l).bind fun c =>
      c.writes s.watchers.daemon.devices a).toList else []
  | _ => []

def step (a : Watchers.Action) : Option ListenWire :=
  (s.watchers.step a).map fun w => ⟨w, fun l => s.sent l ++ s.written l a⟩

/-- What a client is sent alternates. -/
def WireAlternates : Prop := ∀ l, Alternates (s.sent l)

/-- The tasks tell each change once, and of no device that the snapshot of a
client has still to come to. -/
def InTurn : Watchers.Action → Prop
  | .daemon _ a => s.watchers.daemon.Orderly a ∧
    ∀ id, s.watchers.daemon.attaches a = some id ∨ s.watchers.daemon.detaches a = some id →
      ∀ l c, s.watchers.listeners.get l = some c → ¬c.phase.unread id
  | .listener l a => ∀ c, s.watchers.listeners.get l = some c → c.InTurn s.watchers.daemon a
  | .subscribe _ => True

/-- The steps that keep the clients' views, in their turn. -/
def KeepsTurns (a : Watchers.Action) : Prop := s.watchers.KeepsViews a ∧ s.InTurn a

end

def start : ListenWire := ⟨.start, fun _ => []⟩

end ListenWire

/-- What follows is about other devices. -/
theorem turns_of_quiet {id : ℕ} {ms ns : List DeviceEvent} {b : Bool}
    (h : turns id ms = some b) (hq : ∀ e ∈ ns, e.id ≠ id) : turns id (ms ++ ns) = some b := by
  rw [turns_append, h, Option.bind_some, after_of_ne hq]

/-- A message of another device may stand anywhere. -/
theorem turns_insert_of_ne {id : ℕ} {e : Option DeviceEvent} (h : ∀ ev, e = some ev → ev.id ≠ id)
    (ms ns : List DeviceEvent) : turns id (ms ++ e.toList ++ ns) = turns id (ms ++ ns) := by
  cases e with
  | none => rw [Option.toList_none, List.append_nil]
  | some ev =>
    rw [Option.toList_some, List.append_assoc, turns_append, turns_append, List.singleton_append]
    simp only [StepSystem.after, turn_of_ne (h ev rfl), Option.bind_some]

/-- What a client has been sent, beside what is announced. Of a device that its
snapshot has still to come to, it has heard nothing. -/
structure ToldInTurn (d : Daemon) (c : Listener) (sent : List DeviceEvent) : Prop where
  unread : ∀ id, c.phase.unread id → turns id sent = some false ∧ ∀ e ∈ c.queue, e.id ≠ id
  read : ∀ id, ¬c.phase.unread id →
    ∃ b, turns id (sent ++ c.queue) = some b ∧ (b = true ↔ d.Announced id)

namespace ToldInTurn

variable {d d' : Daemon} {c c' : Listener} {sent : List DeviceEvent}

theorem alternates (h : ToldInTurn d c sent) : Alternates sent := by
  intro id
  by_cases hu : c.phase.unread id
  · rw [(h.unread id hu).1, Option.isSome_some]
  · obtain ⟨b, hb, -⟩ := h.read id hu
    rw [turns_append] at hb
    obtain ⟨attached, hsent, -⟩ := Option.bind_eq_some_iff.mp hb
    rw [hsent, Option.isSome_some]

/-- The client passes a device of which it has heard nothing. -/
theorem read_of_unread {id : ℕ} (h : ToldInTurn d c sent) (hu : c.phase.unread id)
    (hnot : ¬d.Announced id) :
    ∃ b, turns id (sent ++ c.queue) = some b ∧ (b = true ↔ d.Announced id) := by
  obtain ⟨hsent, hq⟩ := h.unread id hu
  exact ⟨false, turns_of_quiet hsent hq, by simpa using hnot⟩

/-- An event is put on the queue of a client. -/
theorem push {a : Daemon.Action} {e : Option DeviceEvent} (h : ToldInTurn d c sent)
    (hd : d.Sound) (hc : d.Clean a) (ho : d.Orderly a)
    (hback : ∀ k, d.usb = .reopened k → (d.devices.get k).isSome = true)
    (hquiet : c.phase.begun = true → d.usb.arrival = none ∧ d'.usb.arrival = none)
    (hstep : d.step a = some (d', e)) (hread : ∀ ev, e = some ev → ¬c.phase.unread ev.id) :
    ToldInTurn d' (c.push e) sent where
  unread id hu := by
    obtain ⟨hsent, hq⟩ := h.unread id hu
    refine ⟨hsent, fun ev hev => ?_⟩
    rcases List.mem_append.mp hev with hev | hev
    · exact hq ev hev
    · rintro rfl
      exact hread ev (Option.mem_toList.mp hev) hu
  read id hu := by
    obtain ⟨b, hb, hann⟩ := h.read id hu
    have hbegun : c.phase.begun = true := by
      obtain ⟨phase, queue⟩ := c
      cases phase with
      | subscribed => exact absurd trivial hu
      | snapshot left view => rfl
      | listening view => rfl
    obtain ⟨harr, harr'⟩ := hquiet hbegun
    obtain ⟨b', hb', hann'⟩ := hd.announced_step hc ho harr harr' hback hstep hann
    refine ⟨b', ?_, hann'⟩
    calc turns id (sent ++ (c.queue ++ e.toList))
        = turns id (sent ++ c.queue ++ e.toList) := by rw [List.append_assoc]
      _ = StepSystem.after (turn id) b e.toList := by rw [turns_append, hb, Option.bind_some]
      _ = some b' := hb'

theorem beginSnapshot {queue : List DeviceEvent} (h : ToldInTurn d ⟨.subscribed, queue⟩ sent)
    (hw : ∀ id, ¬d.WillDetach id) : ToldInTurn d ⟨.snapshot d.devices.keys [], queue⟩ sent where
  unread id _ := h.unread id trivial
  read id hu := by
    refine h.read_of_unread trivial ?_
    rintro (⟨hshown, -⟩ | hd)
    · -- what is shown is an entry
      have hsome := Option.isSome_iff_exists.mp (Registry.isSome_of_shown hshown)
      exact hu ((d.devices.mem_keys_iff id).mpr hsome)
    · exact hw id hd

theorem endSnapshot {left view : List ℕ} {queue : List DeviceEvent}
    (h : ToldInTurn d ⟨.snapshot left view, queue⟩ sent)
    (hleft : ∀ id ∈ left, d.devices.get id = none) (hw : ∀ id ∈ left, ¬d.WillDetach id) :
    ToldInTurn d ⟨.listening view, queue⟩ sent where
  unread id hu := hu.elim
  read id _ := by
    by_cases hid : id ∈ left
    · refine h.read_of_unread hid ?_
      rintro (⟨hshown, -⟩ | hd)
      · rw [Registry.shown_of_get_eq_none (hleft id hid)] at hshown
        cases hshown
      · exact hw id hid hd
    · exact h.read id hid

/-- The iteration comes to an entry, and tells it if it is listed. -/
theorem visit {left view view' : List ℕ} {queue : List DeviceEvent} {id : ℕ}
    (h : ToldInTurn d ⟨.snapshot left view, queue⟩ sent) (hd : d.Sound)
    (hid : (d.devices.get id).isSome = true)
    (hk : d.devices.listed id = true → id ∈ left ∧ ¬d.Excuses id) {e : Option DeviceEvent}
    (he : e = if d.devices.listed id then some (.attached id) else none) :
    ToldInTurn d ⟨.snapshot (left.filter (· ≠ id)) view', queue⟩ (sent ++ e.toList) := by
  have hother {j : ℕ} (hj : j ≠ id) : ∀ ev, e = some ev → ev.id ≠ j := by
    intro ev hev
    rw [hev] at he
    split_ifs at he
    cases he
    exact Ne.symm hj
  constructor
  case unread =>
    intro j hu
    obtain ⟨hleft, hne⟩ := List.mem_filter.mp hu
    obtain ⟨hsent, hq⟩ := h.unread j hleft
    refine ⟨turns_of_quiet hsent fun ev hev => ?_, hq⟩
    exact hother (of_decide_eq_true hne) ev (Option.mem_toList.mp hev)
  case read =>
    intro j hu
    by_cases hj : j = id
    · subst hj
      cases hlisted : d.devices.listed j with
      | true =>
        -- a device that is listed is told here for the first time
        obtain ⟨hleft, hx⟩ := hk hlisted
        obtain ⟨hsent, hq⟩ := h.unread j hleft
        have hshown := (hd.listed_iff_shown j).mp hlisted
        rw [hlisted, if_pos rfl] at he
        have hnew : turns j (sent ++ [.attached j]) = some true := by
          rw [turns_append, hsent]
          simp [StepSystem.after, turn]
        refine ⟨true, ?_, by simpa using .inl ⟨hshown, hx⟩⟩
        rw [he]
        exact turns_of_quiet hnew hq
      | false =>
        rw [hlisted, if_neg Bool.false_ne_true] at he
        rw [he, Option.toList_none, List.append_nil]
        -- one that is not listed is not shown, and no Detached of it is to come
        by_cases hleft : j ∈ left
        · refine h.read_of_unread hleft ?_
          rintro (⟨hshown, -⟩ | hw)
          · rw [(hd.listed_iff_shown j).mpr hshown] at hlisted
            cases hlisted
          · rw [hd.get_of_willDetach hw] at hid
            cases hid
        · exact h.read j hleft
    · have hleft : j ∉ left := fun hmem =>
        hu (List.mem_filter.mpr ⟨hmem, decide_eq_true hj⟩)
      obtain ⟨b, hb, hann⟩ := h.read j hleft
      exact ⟨b, (turns_insert_of_ne (hother hj) sent queue).trans hb, hann⟩

/-- A client reads an event, and writes it. -/
theorem recv {view view' : List ℕ} {e : DeviceEvent} {queue : List DeviceEvent}
    (h : ToldInTurn d ⟨.listening view, e :: queue⟩ sent) :
    ToldInTurn d ⟨.listening view', queue⟩ (sent ++ [e]) where
  unread id hu := hu.elim
  read id hu := by
    obtain ⟨b, hb, hann⟩ := h.read id hu
    refine ⟨b, ?_, hann⟩
    rw [List.append_assoc]
    exact hb

theorem step {a : Listener.Action} (h : ToldInTurn d c sent) (hd : d.Sound) (hk : c.InTurn d a)
    (hv : ∀ id reads, a = .visit id reads → d.devices.ListsRight reads id)
    (hst : c.step d.devices a = some c') :
    ToldInTurn d c' (sent ++ (c.writes d.devices a).toList) := by
  obtain ⟨phase, queue⟩ := c
  cases a with
  | beginSnapshot =>
    cases phase with
    | subscribed =>
      cases hst
      have hsilent : sent ++ [] = sent := List.append_nil sent
      exact hsilent.symm ▸ h.beginSnapshot fun id => hk id trivial
    | snapshot left view => cases hst
    | listening view => cases hst
  | visit id reads =>
    cases phase with
    | subscribed => cases hst
    | snapshot left view =>
      have hlisted := Registry.listedRead_eq (hv id reads rfl)
      simp only [Listener.step, Option.ite_none_right_eq_some, Option.some.injEq] at hst
      obtain ⟨hid, rfl⟩ := hst
      simp only [Listener.InTurn, hlisted] at hk
      exact h.visit hd hid hk (by simp only [Listener.writes, hlisted])
    | listening view => cases hst
  | endSnapshot =>
    cases phase with
    | subscribed => cases hst
    | snapshot left view =>
      simp only [Listener.step] at hst
      split_ifs at hst with hl
      cases hst
      -- the ids that the iteration has not come to have no entries
      have hleft : ∀ id ∈ left, d.devices.get id = none := by simpa using hl
      have hsilent : sent ++ [] = sent := List.append_nil sent
      exact hsilent.symm ▸ h.endSnapshot hleft hk
    | listening view => cases hst
  | recv =>
    cases phase with
    | subscribed => cases hst
    | snapshot left view => cases hst
    | listening view =>
      cases queue with
      | nil => cases hst
      | cons e queue =>
        cases hst
        -- an Attached is written only while its device is there
        have hwrites : Listener.writes d.devices ⟨.listening view, e :: queue⟩ .recv = some e := by
          cases e with
          | attached id => exact if_pos (hk id queue rfl)
          | detached id => rfl
        rw [hwrites]
        exact h.recv

end ToldInTurn

namespace ListenWire

/-- What holds at every time, for every client. -/
structure Inv (s : ListenWire) : Prop where
  watchers : s.watchers.Inv
  back : ∀ j, s.watchers.daemon.usb = .reopened j →
    (s.watchers.daemon.devices.get j).isSome = true
  told : ∀ l c, s.watchers.listeners.get l = some c → ToldInTurn s.watchers.daemon c (s.sent l)
  silent : ∀ l, s.watchers.listeners.get l = none → s.sent l = []

theorem inv_start : start.Inv where
  watchers := Watchers.inv_start
  back j hu := by cases hu
  told l c h := by cases h
  silent l _ := rfl

theorem toldInTurn_subscribed {d : Daemon} : ToldInTurn d ⟨.subscribed, []⟩ [] where
  unread id _ := ⟨rfl, fun e he => by cases he⟩
  read id hu := absurd trivial hu

section

variable {s t : ListenWire}

theorem Inv.wireAlternates (hs : s.Inv) : s.WireAlternates := by
  intro l
  cases hl : s.watchers.listeners.get l with
  | none =>
    rw [hs.silent l hl]
    exact fun _ => rfl
  | some c => exact (hs.told l c hl).alternates

theorem Inv.daemon {reads : SerialReads} {a : Daemon.Action} (hs : s.Inv)
    (hk : s.KeepsTurns (.daemon reads a)) (h : s.step (.daemon reads a) = some t) : t.Inv := by
  obtain ⟨w, hw, rfl⟩ := Option.map_eq_some_iff.mp h
  have hnext : w.Inv := Watchers.inv_step hs.watchers hk.1 hw
  obtain ⟨⟨d', e⟩, hstep, rfl⟩ := Option.map_eq_some_iff.mp hw
  obtain ⟨⟨hreads, hclean, -⟩, horderly, hread⟩ := hk
  rw [Daemon.stepRead_eq hreads] at hstep
  have hm := Daemon.move_of_step hstep
  refine ⟨hnext, hs.watchers.sound.back_step hm hs.back, ?_, ?_⟩
  · intro l c' hget
    have hheard' := hnext.heard l c' hget
    rw [KeyTable.get_map] at hget
    obtain ⟨c, hl, rfl⟩ := Option.map_eq_some_iff.mp hget
    have hheard := hs.watchers.heard l c hl
    change ToldInTurn d' (c.push e) (s.sent l ++ [])
    rw [List.append_nil]
    refine (hs.told l c hl).push hs.watchers.sound hclean horderly hs.back
      (fun hb => ⟨hheard.quiet hb, hheard'.quiet hb⟩) hstep ?_
    rintro ev rfl
    refine hread ev.id ?_ l c hl
    cases ev with
    | attached id => exact .inl ((Daemon.attaches_iff hm id).mpr rfl)
    | detached id => exact .inr ((Daemon.detaches_iff hm id).mpr rfl)
  · intro l hnone
    rw [KeyTable.get_map, Option.map_eq_none_iff] at hnone
    exact (List.append_nil _).trans (hs.silent l hnone)

theorem Inv.subscribe {l : ℕ} (hs : s.Inv) (hk : s.KeepsTurns (.subscribe l))
    (h : s.step (.subscribe l) = some t) : t.Inv := by
  obtain ⟨w, hw, rfl⟩ := Option.map_eq_some_iff.mp h
  have hnext : w.Inv := Watchers.inv_step hs.watchers hk.1 hw
  rw [Watchers.step] at hw
  split at hw
  · cases hw
  next hnone =>
    cases hw
    refine ⟨hnext, hs.back, ?_, ?_⟩
    · intro k c hget
      change ToldInTurn s.watchers.daemon c (s.sent k ++ [])
      rw [List.append_nil]
      rw [KeyTable.get_insert] at hget
      split_ifs at hget with hk
      · cases hget
        rw [hk, hs.silent l hnone]
        exact toldInTurn_subscribed
      · exact hs.told k c hget
    · intro k hget
      rw [KeyTable.get_insert] at hget
      split_ifs at hget
      exact (List.append_nil _).trans (hs.silent k hget)

theorem Inv.listener {l : ℕ} {a : Listener.Action} (hs : s.Inv)
    (hk : s.KeepsTurns (.listener l a)) (h : s.step (.listener l a) = some t) : t.Inv := by
  obtain ⟨w, hw, rfl⟩ := Option.map_eq_some_iff.mp h
  have hnext : w.Inv := Watchers.inv_step hs.watchers hk.1 hw
  obtain ⟨c', hbind, rfl⟩ := Option.map_eq_some_iff.mp hw
  obtain ⟨c, hl, hstep⟩ := Option.bind_eq_some_iff.mp hbind
  have hother {k : ℕ} (hne : k ≠ l) : s.sent k ++ s.written k (.listener l a) = s.sent k := by
    rw [written, if_neg (Ne.symm hne), List.append_nil]
  refine ⟨hnext, hs.back, ?_, ?_⟩
  · intro k c₁ hget
    rw [KeyTable.get_insert] at hget
    split_ifs at hget with hkl
    · subst hkl
      cases hget
      have hwritten : s.written k (.listener k a) =
          (c.writes s.watchers.daemon.devices a).toList := by
        rw [written, if_pos rfl, hl, Option.bind_some]
      change ToldInTurn s.watchers.daemon c' (s.sent k ++ s.written k (.listener k a))
      rw [hwritten]
      refine (hs.told k c hl).step hs.watchers.sound (hk.2 c hl) ?_ hstep
      rintro id reads rfl
      exact hk.1
    · change ToldInTurn s.watchers.daemon c₁ (s.sent k ++ s.written k (.listener l a))
      rw [hother hkl]
      exact hs.told k c₁ hget
  · intro k hget
    rw [KeyTable.get_insert] at hget
    split_ifs at hget with hkl
    exact (hother hkl).trans (hs.silent k hget)

theorem inv_step {a : Watchers.Action} (hs : s.Inv) (hk : s.KeepsTurns a)
    (h : s.step a = some t) : t.Inv := by
  cases a with
  | daemon reads a => exact hs.daemon hk h
  | subscribe l => exact hs.subscribe hk h
  | listener l a => exact hs.listener hk h

end

/-- What each client is sent about each device alternates, Attached first, in
every run in which the tasks tell each change once and no event overtakes a
snapshot. -/
theorem wireAlternates_of_keepsTurns (as : List Watchers.Action)
    (h : StepSystem.EveryStep step KeepsTurns start as) :
    StepSystem.EveryState step WireAlternates start as :=
  (StepSystem.everyState_of_everyStep (fun _ _ _ hs hk hst => inv_step hs hk hst)
    inv_start h).mono fun _ hs => hs.wireAlternates

/-- A USB device arrives for a client that listens, and is unplugged. -/
def unpluggedRun : List Watchers.Action :=
  [.subscribe 0, .listener 0 .beginSnapshot, .listener 0 .endSnapshot,
    .daemon .own (.usbConnected 0 Broadcasts.usbA none), .daemon .own .usbRetain,
    .daemon .own .usbInsert, .daemon .own (.usbDisconnected 0), .daemon .own (.announceTwin none),
    .daemon .own .sendDetached, .listener 0 .recv]

/-- The client is told only that the device is gone. -/
theorem not_wireAlternates_unplugged : ¬ ∀ as : List Watchers.Action,
    StepSystem.EveryState step WireAlternates start as := by
  intro h
  have hlast := (h unpluggedRun).last rfl
  have hturns := hlast 0 0
  cases hturns

/-- A step that sends nothing overtakes no snapshot. -/
theorem inTurn_of_silent {s : ListenWire} {a : Daemon.Action} (ho : s.watchers.daemon.Orderly a)
    (hattaches : s.watchers.daemon.attaches a = none)
    (hdetaches : s.watchers.daemon.detaches a = none) : s.InTurn (.daemon .own a) := by
  refine ⟨ho, fun id hid => ?_⟩
  rw [hattaches, hdetaches] at hid
  rcases hid with hid | hid
  · cases hid
  · cases hid

/-- The only client has its snapshot behind it. -/
theorem not_unread_of_listening {s : ListenWire} {view : List ℕ} {queue : List DeviceEvent}
    (hs : s.watchers.listeners.entries = [(0, ⟨.listening view, queue⟩)]) (l : ℕ) (c : Listener)
    (hl : s.watchers.listeners.get l = some c) (id : ℕ) : ¬c.phase.unread id := by
  have hmem := (KeyTable.get_eq_some_iff _ l c).mp hl
  rw [hs] at hmem
  cases List.mem_singleton.mp hmem
  exact fun hu => hu

/-- A listening client is told of a network device that comes and goes. -/
theorem wireAlternates_of_keepsTurns_network :
    StepSystem.EveryState step WireAlternates start Watchers.networkRun := by
  apply wireAlternates_of_keepsTurns
  have hinsert (id : ℕ) (info : DeviceInfo)
      (hu : UsbTask.retained 0 ⟨APPLE_VID, some "A", 1⟩ = .retained id info) :
      Registry.coversNone .empty (Device.usb info).serialNumber = true := by
    cases hu
    rfl
  -- the USB device arrives before there is a client
  refine .intro ⟨⟨Daemon.readsRight_own _ _, trivial, nofun⟩,
    inTurn_of_silent trivial rfl rfl⟩ ?_
  refine .intro ⟨Watchers.keepsViews_of_clean trivial nofun, inTurn_of_silent trivial rfl rfl⟩ ?_
  refine .intro ⟨Watchers.keepsViews_of_clean hinsert nofun, inTurn_of_silent trivial rfl rfl⟩ ?_
  -- the client subscribes, and its snapshot comes to the device
  refine .intro ⟨trivial, trivial⟩ ?_
  refine .intro ⟨rfl, fun c _ id _ => (Watchers.not_owed_of_atRest rfl id).1⟩ ?_
  refine .intro ⟨?_, ?_⟩ ?_
  · rintro mac serial ⟨⟩
  · rintro c ⟨⟩ -
    exact ⟨List.mem_cons_self, Daemon.not_excuses (fun hx => hx) rfl⟩
  refine .intro ⟨trivial, fun c _ id _ => (Watchers.not_owed_of_atRest rfl id).1⟩ ?_
  -- the network device comes
  refine .intro ⟨Watchers.keepsViews_of_clean trivial nofun, inTurn_of_silent trivial rfl rfl⟩ ?_
  refine .intro ⟨Watchers.keepsViews_of_clean ?_ nofun, inTurn_of_silent trivial rfl rfl⟩ ?_
  · rintro mac serial ⟨⟩
    rfl
  refine .intro ⟨Watchers.keepsViews_of_clean trivial nofun, inTurn_of_silent trivial rfl rfl⟩ ?_
  refine .intro ⟨Watchers.keepsViews_of_clean trivial nofun, ⟨rfl, fun hx => hx⟩,
    fun id _ l c hl => not_unread_of_listening rfl l c hl id⟩ ?_
  refine .intro ⟨trivial, ?_⟩ ?_
  · rintro c ⟨⟩ id rest ⟨⟩
    rfl
  -- and goes
  refine .intro ⟨Watchers.keepsViews_of_clean trivial nofun, inTurn_of_silent
    (fun _ => Daemon.not_excuses (fun hx => hx) rfl) rfl rfl⟩ ?_
  refine .intro ⟨Watchers.keepsViews_of_clean trivial nofun, inTurn_of_silent trivial rfl rfl⟩ ?_
  refine .intro ⟨Watchers.keepsViews_of_clean trivial nofun, trivial,
    fun id _ l c hl => not_unread_of_listening rfl l c hl id⟩ ?_
  refine .intro ⟨trivial, ?_⟩ trivial
  rintro c ⟨⟩ id rest ⟨⟩

end ListenWire

end Rusbmux
