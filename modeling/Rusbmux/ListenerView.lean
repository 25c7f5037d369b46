import Rusbmux.WatchersTell

/-! What a listening client ends up with: the devices that the registry shows,
as long as every task's events stay true of the registry. -/
namespace Rusbmux

def DeviceEvent.id : DeviceEvent → ℕ
  | attached id | detached id => id

/-- Whether a client has the device in its view once it has read the events.
An attach event counts only for a device that is present. -/
def follow (present : Prop) (id : ℕ) : List DeviceEvent → Prop → Prop
  | [], told => told
  | .attached j :: queue, told => follow present id queue (j = id ∧ present ∨ told)
  | .detached j :: queue, told => follow present id queue (j ≠ id ∧ told)

theorem follow_mono {p p' b b' : Prop} {id : ℕ} (queue : List DeviceEvent) (hp : p → p')
    (hb : b → b') (h : follow p id queue b) : follow p' id queue b' := by
  induction queue generalizing b b' with
  | nil => exact hb h
  | cons e queue ih =>
    cases e with
    | attached j => exact ih (Or.imp (And.imp_right hp) hb) h
    | detached j => exact ih (And.imp_right hb) h

theorem follow_append (p b : Prop) (id : ℕ) (queue rest : List DeviceEvent) :
    follow p id (queue ++ rest) b ↔ follow p id rest (follow p id queue b) := by
  induction queue generalizing b with
  | nil => exact Iff.rfl
  | cons e queue ih =>
    cases e with
    | attached j => exact ih _
    | detached j => exact ih _

/-- Events about other devices change nothing. -/
theorem follow_of_ne (p b : Prop) (id : ℕ) (queue : List DeviceEvent)
    (h : ∀ e ∈ queue, e.id ≠ id) : follow p id queue b ↔ b := by
  induction queue generalizing b with
  | nil => exact Iff.rfl
  | cons e queue ih =>
    have he := h e List.mem_cons_self
    have hq : ∀ e' ∈ queue, e'.id ≠ id := fun e' he' => h e' (List.mem_cons_of_mem e he')
    cases e with
    | attached j =>
      have hj : j ≠ id := he
      rw [follow, ih _ hq]
      simp only [hj, false_and, false_or]
    | detached j =>
      have hj : j ≠ id := he
      rw [follow, ih _ hq]
      simp only [ne_eq, hj, not_false_eq_true, true_and]

/-- No event adds a device that is not present. -/
theorem told_of_follow {p b : Prop} {id : ℕ} (queue : List DeviceEvent) (hp : ¬p)
    (h : follow p id queue b) : b := by
  induction queue generalizing b with
  | nil => exact h
  | cons e queue ih =>
    cases e with
    | attached j => exact (ih h).resolve_left fun hj => hp hj.2
    | detached j => exact (ih h).2

namespace ListenPhase

def view : ListenPhase → List ℕ
  | subscribed => []
  | snapshot _ view | listening view => view

/-- The snapshot has still to come to the entry. -/
def unread (id : ℕ) : ListenPhase → Prop
  | subscribed => True
  | snapshot left _ => id ∈ left
  | listening _ => False

def begun : ListenPhase → Bool
  | subscribed => false
  | snapshot _ _ | listening _ => true

end ListenPhase

/-- The device is in the client's view, at the end of the snapshot and of the
events sent so far, if nothing else happens. -/
def Listener.Told (l : Listener) (devices : Registry) (id : ℕ) : Prop :=
  follow ((devices.get id).isSome = true) id l.queue
    (id ∈ l.phase.view ∨ l.phase.unread id ∧ devices.shown id = true)

/-- A client whose snapshot has not begun is told of present devices only. -/
theorem Listener.not_told {l : Listener} {devices : Registry} {id : ℕ}
    (hl : l.phase.begun = false) (hid : devices.get id = none) : ¬l.Told devices id := by
  intro ht
  have hp : ¬(devices.get id).isSome = true := by simp [hid]
  rcases told_of_follow l.queue hp ht with hv | ⟨-, hs⟩
  · cases hphase : l.phase <;> simp [hphase, ListenPhase.view, ListenPhase.begun] at hl hv
  · rw [Registry.shown_of_get_eq_none hid] at hs
    cases hs

/-- What holds between the daemon and a client at every time. -/
structure Heard (d : Daemon) (l : Listener) : Prop where
  view : ∀ id ∈ l.phase.view, id ∈ d.ids
  queue : ∀ e ∈ l.queue, e.id ∈ d.ids
  quiet : l.phase.begun = true → d.usb.arrival = none
  told : ∀ id, l.Told d.devices id → d.devices.shown id = true ∨ d.WillDetach id
  shown : ∀ id, d.devices.shown id = true → l.Told d.devices id ∨ d.Excuses id

namespace Heard

variable {d d' : Daemon} {l : Listener} (h : Heard d l)
include h

/-- A device that is not present, or that nobody has heard of, is told only
where the snapshot will come to it. -/
theorem told_of_fresh {id : ℕ} (hid : id ∉ d.ids)
    (ht : l.Told d'.devices id) : l.phase.unread id ∧ d'.devices.shown id = true := by
  have hq : ∀ e ∈ l.queue, e.id ≠ id := by
    rintro e he rfl
    exact hid (h.queue e he)
  have hb := (follow_of_ne _ _ id l.queue hq).mp ht
  exact hb.resolve_left fun hv => hid (h.view id hv)

theorem silent (hs : d.Silent d') (hids : ∀ id ∈ d.ids, id ∈ d'.ids)
    (hq : l.phase.begun = true → d'.usb.arrival = none) : Heard d' l := by
  have hnot : d.usb.arrival ≠ none → l.phase.begun = false := by
    intro ha
    rw [← Bool.not_eq_true]
    exact fun hb => ha (h.quiet hb)
  refine ⟨fun id hid => hids id (h.view id hid), fun e he => hids e.id (h.queue e he), hq, ?_, ?_⟩
  · intro id ht
    by_contra hne
    rw [not_or] at hne
    -- a device that is told and not shown was told before
    have htold : l.Told d.devices id := by
      refine follow_mono l.queue ?_ ?_ ht
      · intro hp
        rcases hs.present id hp with hsh | hp' | hid
        · exact absurd hsh hne.1
        · exact hp'
        · exact absurd (h.told_of_fresh hid ht).2 hne.1
      · rintro (hv | ⟨-, hsh⟩)
        · exact .inl hv
        · exact absurd hsh hne.1
    rcases hs.keep id (h.told id htold) with hsh | hw | ⟨ha, hnone⟩
    · exact hne.1 hsh
    · exact hne.2 hw
    · exact Listener.not_told (hnot ha) hnone ht
  · intro id hsh
    rcases hs.excuse id hsh with ⟨hold, he⟩ | he | ⟨ha, hid⟩
    · rcases h.shown id hold with ht | hx
      · left
        refine follow_mono l.queue (fun _ => Registry.isSome_of_shown hsh) ?_ ht
        exact Or.imp_right fun hu => ⟨hu.1, hsh⟩
      · exact .inr (he hx)
    · exact .inr he
    · -- a new device, for a client whose snapshot has not begun
      left
      have hl := hnot ha
      have hb : id ∈ l.phase.view ∨ l.phase.unread id ∧ d'.devices.shown id = true := by
        cases hphase : l.phase <;> simp_all [ListenPhase.begun, ListenPhase.unread]
      have hne : ∀ e ∈ l.queue, e.id ≠ id := by
        rintro e he rfl
        exact hid (h.queue e he)
      exact (follow_of_ne _ _ id l.queue hne).mpr hb

theorem detached {i : ℕ} (hs : d.Detaches i d') (hi : i ∈ d'.ids) (hids : ∀ id ∈ d.ids, id ∈ d'.ids)
    (hq : l.phase.begun = true → d'.usb.arrival = none) :
    Heard d' (l.push (some (.detached i))) := by
  have htold : ∀ id, (l.push (some (.detached i))).Told d'.devices id ↔
      i ≠ id ∧ l.Told d.devices id := by
    intro id
    rw [Listener.Told, hs.devices]
    exact follow_append _ _ id l.queue [.detached i]
  refine ⟨fun id hid => hids id (h.view id hid), ?_, hq, ?_, ?_⟩
  · intro e he
    rcases List.mem_append.mp he with he | he
    · exact hids e.id (h.queue e he)
    · rw [List.mem_singleton.mp he]
      exact hi
  · intro id ht
    obtain ⟨hne, ht⟩ := (htold id).mp ht
    rw [hs.devices]
    exact (h.told id ht).imp_right (hs.owed id hne.symm)
  · intro id hsh
    rw [hs.devices] at hsh
    by_cases hid : id = i
    · subst hid
      exact .inr (hs.hidden hsh)
    · rcases h.shown id hsh with ht | hx
      · exact .inl ((htold id).mpr ⟨Ne.symm hid, ht⟩)
      · exact .inr (hs.excuse id hsh hid hx)

theorem attached {i : ℕ} (hs : d.Attaches i d') (hi : i ∈ d'.ids) (hids : ∀ id ∈ d.ids, id ∈ d'.ids)
    (hq : l.phase.begun = true → d'.usb.arrival = none) :
    Heard d' (l.push (some (.attached i))) := by
  have htold : ∀ id, (l.push (some (.attached i))).Told d'.devices id ↔
      i = id ∧ (d.devices.get id).isSome = true ∨ l.Told d.devices id := by
    intro id
    rw [Listener.Told, hs.devices]
    exact follow_append _ _ id l.queue [.attached i]
  refine ⟨fun id hid => hids id (h.view id hid), ?_, hq, ?_, ?_⟩
  · intro e he
    rcases List.mem_append.mp he with he | he
    · exact hids e.id (h.queue e he)
    · rw [List.mem_singleton.mp he]
      exact hi
  · intro id ht
    rw [hs.devices]
    rcases (htold id).mp ht with ⟨rfl, hp⟩ | ht
    · exact .inl (hs.shown hp)
    · exact (h.told id ht).imp_right (hs.owed id)
  · intro id hsh
    rw [hs.devices] at hsh
    by_cases hid : id = i
    · subst hid
      exact .inl ((htold id).mpr (.inl ⟨rfl, Registry.isSome_of_shown hsh⟩))
    · rcases h.shown id hsh with ht | hx
      · exact .inl ((htold id).mpr (.inr ht))
      · exact .inr (hs.excuse id hsh hid hx)

/-- A step that tells what it owes keeps a client up to date. -/
theorem push {e : Option DeviceEvent} (hs : d.Tells d' e) (he : ∀ ev, e = some ev → ev.id ∈ d'.ids)
    (hids : ∀ id ∈ d.ids, id ∈ d'.ids) (hq : l.phase.begun = true → d'.usb.arrival = none) :
    Heard d' (l.push e) := by
  match e, hs with
  | none, hs =>
    have hpush : l.push none = l := by simp [Listener.push]
    rw [hpush]
    exact h.silent hs hids hq
  | some (.detached i), hs => exact h.detached hs (he _ rfl) hids hq
  | some (.attached i), hs => exact h.attached hs (he _ rfl) hids hq

/-- A step of the client. -/
theorem next {l' : Listener} (hview : ∀ id ∈ l'.phase.view, id ∈ d.ids)
    (hqueue : ∀ e ∈ l'.queue, e ∈ l.queue)
    (hquiet : l'.phase.begun = true → d.usb.arrival = none)
    (htold : ∀ id, (l'.Told d.devices id → d.devices.shown id = true ∨ l.Told d.devices id) ∧
      (l.Told d.devices id → l'.Told d.devices id)) : Heard d l' := by
  refine ⟨hview, fun e he => h.queue e (hqueue e he), hquiet, fun id ht => ?_, fun id hs => ?_⟩
  · rcases (htold id).1 ht with hs | ht'
    · exact .inl hs
    · exact h.told id ht'
  · exact (h.shown id hs).imp_left (htold id).2

end Heard

/-- With one network device for each serial number, the filter of the snapshot
lets pass what the registry shows. -/
theorem Daemon.Sound.listed_iff_shown {d : Daemon} (h : d.Sound) (id : ℕ) :
    d.devices.listed id = true ↔ d.devices.shown id = true := by
  cases he : d.devices.get id with
  | none => simp [Registry.listed, Registry.shown, he]
  | some e =>
    cases e with
    | usb info => simp [Registry.listed, Registry.shown, he, Device.isUsb]
    | network mac name =>
      simp only [Registry.listed, Registry.shown, he, Option.any_some, Device.isUsb,
        Device.serialNumber, Bool.false_or, Bool.not_eq_true', KeyTable.any_eq_false_iff,
        Registry.hasUsb_eq_false_iff]
      constructor
      · intro hl k e hk hu hname
        -- a USB device is another entry than the network device
        have hne : k ≠ id := by
          rintro rfl
          rw [he] at hk
          cases hk
          cases hu
        have hf := hl k e hk
        rw [hname] at hf
        simp [hne] at hf
      · intro hs k e hk
        by_contra hne
        simp only [Bool.not_eq_false, Bool.and_eq_true, beq_iff_eq, bne_iff_ne] at hne
        cases e with
        | usb info => exact hs k _ hk rfl hne.1
        | network mac' name' =>
          have hname : name' = name := hne.1
          subst hname
          exact hne.2 (h.single k id mac' mac name' hk he)

theorem mem_tell_attached (devices : Registry) (view : List ℕ) (id j : ℕ) :
    id ∈ Listener.tell devices view (.attached j) ↔
      j = id ∧ (devices.get id).isSome = true ∨ id ∈ view := by
  rw [Listener.tell]
  split_ifs with hj
  · rw [List.mem_cons]
    refine or_congr_left ⟨?_, fun h => h.1.symm⟩
    rintro rfl
    exact ⟨rfl, hj⟩
  · refine (or_iff_right ?_).symm
    rintro ⟨rfl, hsome⟩
    exact hj hsome

/-- Reading an event is what `follow` does with it. -/
theorem told_recv (devices : Registry) (id : ℕ) (view : List ℕ) (e : DeviceEvent)
    (queue : List DeviceEvent) :
    Listener.Told ⟨.listening (Listener.tell devices view e), queue⟩ devices id ↔
      Listener.Told ⟨.listening view, e :: queue⟩ devices id := by
  cases e with
  | attached j =>
    simp only [Listener.Told, ListenPhase.view, ListenPhase.unread, follow, mem_tell_attached,
      false_and, or_false]
  | detached j =>
    have hmem : id ∈ Listener.tell devices view (.detached j) ↔ j ≠ id ∧ id ∈ view := by
      simp only [Listener.tell, List.mem_filter, decide_eq_true_eq, ne_eq, and_comm,
        @eq_comm ℕ id j]
    simp only [Listener.Told, ListenPhase.view, ListenPhase.unread, follow, hmem,
      false_and, or_false]

section

variable {d : Daemon} {queue : List DeviceEvent} {left view : List ℕ}

theorem Heard.beginSnapshot (h : Heard d ⟨.subscribed, queue⟩) (hu : d.usb.arrival = none) :
    Heard d ⟨.snapshot d.devices.keys [], queue⟩ := by
  apply h.next
  · nofun
  · exact fun e he => he
  · exact fun _ => hu
  · intro id
    constructor
    · intro ht
      right
      refine follow_mono queue (fun hp => hp) ?_ ht
      exact Or.imp_right fun hs => ⟨trivial, hs.2⟩
    · refine follow_mono queue (fun hp => hp) (Or.imp_right fun hs => ⟨?_, hs.2⟩)
      have hsome := Registry.isSome_of_shown hs.2
      exact (d.devices.mem_keys_iff id).mpr (Option.isSome_iff_exists.mp hsome)

theorem Heard.visit {id : ℕ} (h : Heard d ⟨.snapshot left view, queue⟩) (hd : d.Sound)
    (hid : (d.devices.get id).isSome = true) :
    Heard d ⟨.snapshot (left.filter (· ≠ id))
      (if d.devices.listed id then id :: view else view), queue⟩ := by
  have hlisted := hd.listed_iff_shown id
  apply h.next
  · intro j hj
    have hmem : j = id ∨ j ∈ view := by
      change j ∈ (if d.devices.listed id then id :: view else view) at hj
      split_ifs at hj
      · exact List.mem_cons.mp hj
      · exact .inr hj
    -- what the client is told of has an entry
    rcases hmem with rfl | hv
    · exact hd.known j hid
    · exact h.view j hv
  · exact fun e he => he
  · exact h.quiet
  · intro j
    by_cases hs : d.devices.shown j = true
    · -- the device is shown, and told now or later
      refine ⟨fun _ => .inl hs, follow_mono queue (fun hp => hp) ?_⟩
      simp only [ListenPhase.view, ListenPhase.unread, hs, and_true]
      by_cases hj : j = id
      · subst hj
        simp [hlisted.mpr hs]
      · rintro (hv | hl)
        · left
          split_ifs
          · exact List.mem_cons_of_mem id hv
          · exact hv
        · exact .inr (by simp [hl, hj])
    · -- the device is hidden, so that the visit does not tell it
      have hbase : (j ∈ if d.devices.listed id then id :: view else view) ↔ j ∈ view := by
        split_ifs with hl
        · have hj : j ≠ id := by
            rintro rfl
            exact hs (hlisted.mp hl)
          simp [hj]
        · exact Iff.rfl
      have hiff : (j ∈ (if d.devices.listed id then id :: view else view) ∨
          j ∈ left.filter (· ≠ id) ∧ d.devices.shown j = true) ↔
          j ∈ view ∨ j ∈ left ∧ d.devices.shown j = true := by
        simp only [hbase, hs, and_false, or_false, Bool.false_eq_true]
      exact ⟨fun ht => .inr (follow_mono queue (fun hp => hp) hiff.mp ht),
        follow_mono queue (fun hp => hp) hiff.mpr⟩

theorem Heard.endSnapshot (h : Heard d ⟨.snapshot left view, queue⟩)
    (hl : ∀ id ∈ left, d.devices.get id = none) : Heard d ⟨.listening view, queue⟩ := by
  apply h.next
  · exact h.view
  · exact fun e he => he
  · exact fun _ => h.quiet rfl
  · intro id
    constructor
    · intro ht
      right
      refine follow_mono queue (fun hp => hp) (Or.imp_right fun hs => ?_) ht
      exact hs.1.elim
    · -- what the iteration has not met is gone
      refine follow_mono queue (fun hp => hp) (Or.imp_right fun hs => ?_)
      have hnot := Registry.shown_of_get_eq_none (hl id hs.1)
      exact absurd (hnot.symm.trans hs.2) Bool.false_ne_true

theorem Heard.recv {e : DeviceEvent} (h : Heard d ⟨.listening view, e :: queue⟩) :
    Heard d ⟨.listening (Listener.tell d.devices view e), queue⟩ := by
  have htell : ∀ id, id ∈ Listener.tell d.devices view e →
      e = .attached id ∨ id ∈ view := by
    intro id hid
    cases e with
    | attached j =>
      rcases (mem_tell_attached d.devices view id j).mp hid with ⟨rfl, -⟩ | hv
      · exact .inl rfl
      · exact .inr hv
    | detached j => exact .inr (List.mem_filter.mp hid).1
  apply h.next
  · intro id hid
    rcases htell id hid with rfl | hv
    · exact h.queue _ List.mem_cons_self
    · exact h.view id hv
  · exact fun e' he' => List.mem_cons_of_mem e he'
  · exact h.quiet
  · intro id
    have hiff := told_recv d.devices id view e queue
    exact ⟨fun ht => .inr (hiff.mp ht), hiff.mpr⟩

end

/-- A client keeps up with the daemon at each of its own steps. -/
theorem Heard.step {d : Daemon} {l l' : Listener} {a : Listener.Action} (h : Heard d l)
    (hd : d.Sound) (hc : a = .beginSnapshot → d.usb.arrival = none)
    (hv : ∀ id reads, a = .visit id reads → d.devices.ListsRight reads id)
    (hst : l.step d.devices a = some l') : Heard d l' := by
  obtain ⟨phase, queue⟩ := l
  cases a with
  | beginSnapshot =>
    cases phase with
    | subscribed =>
      cases hst
      exact h.beginSnapshot (hc rfl)
    | snapshot left view => cases hst
    | listening view => cases hst
  | visit id reads =>
    cases phase with
    | subscribed => cases hst
    | snapshot left view =>
      simp only [Listener.step, Option.ite_none_right_eq_some, Option.some.injEq,
        Registry.listedRead_eq (hv id reads rfl)] at hst
      obtain ⟨hid, rfl⟩ := hst
      exact h.visit hd hid
    | listening view => cases hst
  | endSnapshot =>
    cases phase with
    | subscribed => cases hst
    | snapshot left view =>
      simp only [Listener.step] at hst
      split_ifs at hst with hl
      cases hst
      apply h.endSnapshot
      simpa using hl
    | listening view => cases hst
  | recv =>
    cases phase with
    | subscribed => cases hst
    | snapshot left view => cases hst
    | listening view =>
      cases queue with
      | nil => cases hst
      | cons e queue =>
        cases hst
        exact h.recv

namespace Daemon

variable {d d' : Daemon} {a : Action} {e : Option DeviceEvent}

theorem Move.ids (hm : Move .own d a d' e) : ∀ id ∈ d.ids, id ∈ d'.ids := by
  cases hm <;> first | exact fun _ hid => hid | exact fun _ hid => List.mem_cons_of_mem _ hid

/-- An event is about a device that the registry has had. -/
theorem Move.event (h : d.Sound) (hm : Move .own d a d' e) (ev : DeviceEvent) (he : e = some ev) :
    ev.id ∈ d'.ids := by
  have htwin : ∀ serial n, d.devices.finds serial (some n) = true → n ∈ d.ids := by
    intro serial n hn
    obtain ⟨mac, hget⟩ := Registry.get_of_finds hn
    exact h.known n (by rw [hget]; rfl)
  cases hm with
  | usbConnected id info twin hu hid ht =>
    obtain ⟨n, rfl, rfl⟩ := Option.map_eq_some_iff.mp he
    exact htwin _ n ht
  | announceTwin id info twin hu ht =>
    obtain ⟨n, rfl, rfl⟩ := Option.map_eq_some_iff.mp he
    exact htwin _ n ht
  | left id hu =>
    cases he
    exact (h.gone id (by rw [hu]; rfl)).1
  | lost id o hu =>
    cases he
    exact (h.gone id (by rw [hu]; rfl)).1
  | reopened id hu =>
    cases he
    exact (h.reopened id hu).1
  | networkAttached id ht =>
    cases he
    exact (h.announcing id ht).1
  | removalDetached id ht =>
    cases he
    exact (h.removing id _ ht).1
  | _ => cases he

/-- Only a Connected event starts an arrival. -/
theorem Move.arrival (hm : Move .own d a d' e) (ha : ∀ id info twin, a ≠ .usbConnected id info twin)
    (hu : d.usb.arrival = none) : d'.usb.arrival = none := by
  cases hm with
  | usbConnected id info twin hi hid ht => exact absurd rfl (ha id info twin)
  | usbRetain id info hi =>
    rw [hi] at hu
    cases hu
  | _ => first | exact hu | rfl

end Daemon

namespace Watchers

/-- A USB device arrives only while no client has begun its snapshot, every step of
the daemon is clean, and every search reads the serial numbers right. -/
def KeepsViews (s : Watchers) : Action → Prop
  | .daemon reads a => s.daemon.ReadsRight reads a ∧ s.daemon.Clean a ∧
    ((∃ id info twin, a = .usbConnected id info twin) →
      ∀ l c, s.listeners.get l = some c → c.phase.begun = false)
  | .listener _ .beginSnapshot => s.daemon.usb.arrival = none
  | .listener _ (.visit id reads) => s.daemon.devices.ListsRight reads id
  | _ => True

/-- What holds at every time, for every client. -/
structure Inv (s : Watchers) : Prop where
  sound : s.daemon.Sound
  heard : ∀ l c, s.listeners.get l = some c → Heard s.daemon c

theorem inv_start : start.Inv :=
  ⟨Daemon.sound_start, nofun⟩

theorem heard_subscribed {d : Daemon} : Heard d ⟨.subscribed, []⟩ := by
  refine ⟨nofun, nofun, nofun, ?_, ?_⟩
  · rintro id (hv | hs)
    · cases hv
    · exact .inl hs.2
  · exact fun id hs => .inl (.inr ⟨trivial, hs⟩)

theorem inv_step {s t : Watchers} {a : Action} (h : s.Inv) (hc : s.KeepsViews a)
    (hst : s.step a = some t) : t.Inv := by
  cases a with
  | daemon reads a =>
    obtain ⟨hreads, hclean, harrives⟩ := hc
    obtain ⟨⟨d', e⟩, hr, rfl⟩ := Option.map_eq_some_iff.mp hst
    rw [Daemon.stepRead_eq hreads] at hr
    have hm := Daemon.move_of_step hr
    refine ⟨h.sound.step hclean hm, ?_⟩
    intro l c' hget
    rw [KeyTable.get_map] at hget
    obtain ⟨c, hl, rfl⟩ := Option.map_eq_some_iff.mp hget
    -- every client gets the event, if there is one, at the end of its queue
    have hheard := h.heard l c hl
    apply hheard.push (h.sound.tells hclean hm) (hm.event h.sound) hm.ids
    intro hb
    apply hm.arrival
    · -- a client that has begun keeps devices from arriving
      rintro id info twin rfl
      have hnot := harrives ⟨id, info, twin, rfl⟩ l c hl
      exact Bool.false_ne_true (hnot.symm.trans hb)
    · exact hheard.quiet hb
  | subscribe l =>
    rw [step] at hst
    split at hst
    · cases hst
    · cases hst
      refine ⟨h.sound, ?_⟩
      intro j c hget
      rw [KeyTable.get_insert] at hget
      split_ifs at hget
      · cases hget
        exact heard_subscribed
      · exact h.heard j c hget
  | listener l a =>
    obtain ⟨c', hbind, rfl⟩ := Option.map_eq_some_iff.mp hst
    obtain ⟨c, hl, hstep⟩ := Option.bind_eq_some_iff.mp hbind
    refine ⟨h.sound, ?_⟩
    intro j c₁ hget
    rw [KeyTable.get_insert] at hget
    split_ifs at hget
    · cases hget
      refine (h.heard l c hl).step h.sound ?_ ?_ hstep
      · rintro rfl
        exact hc
      · rintro id reads rfl
        exact hc
    · exact h.heard j c₁ hget

/-- At rest nothing is left to tell. -/
theorem not_owed_of_atRest {d : Daemon} (hr : d.atRest = true) (id : ℕ) :
    ¬d.WillDetach id ∧ ¬d.Excuses id := by
  simp only [Daemon.atRest, Bool.and_eq_true, Bool.not_eq_true', KeyTable.any_eq_false_iff,
    List.isEmpty_iff] at hr
  obtain ⟨⟨hu, ha⟩, hrem⟩ := hr
  have hnone : d.removing.get id = none := by
    rw [KeyTable.get, hrem]
    rfl
  constructor
  · rintro (hw | hw | ⟨serial, hw, -⟩)
    · cases husb : d.usb <;> simp [husb, UsbTask.detaching] at hu hw
    · rw [hnone] at hw
      cases hw
    · rw [hnone] at hw
      cases hw
  · rintro (hx | hx | ⟨serial, hx⟩)
    · rw [Daemon.UsbExcuses] at hx
      cases husb : d.usb <;> simp [husb] at hu hx
    · cases ha id _ hx
    · cases ha id _ hx

theorem Inv.converged {s : Watchers} (h : s.Inv) : s.Converged := by
  intro hr l view hl id
  have hheard := h.heard l _ hl
  have howed := not_owed_of_atRest hr id
  have htold : Listener.Told ⟨.listening view, []⟩ s.daemon.devices id ↔ id ∈ view := by
    simp only [Listener.Told, follow, ListenPhase.view, ListenPhase.unread, false_and, or_false]
  rw [← htold]
  exact ⟨fun ht => (hheard.told id ht).resolve_right howed.1,
    fun hs => (hheard.shown id hs).resolve_right howed.2⟩

/-- A client that listens is told just the devices that the registry shows, in
every run in which no USB device arrives for a client that has begun and every
task's events stay true. -/
theorem converged_of_keepsViews (as : List Action)
    (h : StepSystem.EveryStep step KeepsViews start as) :
    StepSystem.EveryState step Converged start as :=
  (StepSystem.everyState_of_everyStep (fun _ _ _ hs hp hst => inv_step hs hp hst)
    inv_start h).mono fun _ => Inv.converged

/-- A clean step that starts no arrival. -/
theorem keepsViews_of_clean {s : Watchers} {a : Daemon.Action} (hc : s.daemon.Clean a)
    (ha : ∀ id info twin, a ≠ .usbConnected id info twin) : s.KeepsViews (.daemon .own a) :=
  ⟨s.daemon.readsRight_own a, hc, fun ⟨id, info, twin, hx⟩ => absurd hx (ha id info twin)⟩

/-- A USB device is there, a client listens and reads of a network device, which
is removed again. -/
def networkRun : List Action :=
  [.daemon .own (.usbConnected 0 ⟨APPLE_VID, some "A", 1⟩ none), .daemon .own .usbRetain,
    .daemon .own .usbInsert, .subscribe 0, .listener 0 .beginSnapshot, .listener 0 (.visit 0 .own),
    .listener 0 .endSnapshot, .daemon .own (.serviceResolved 1 "mac" "B"),
    .daemon .own (.networkInsert 1), .daemon .own (.networkCheck 1),
    .daemon .own (.networkAttached 1), .listener 0 .recv, .daemon .own (.serviceRemoved 1 "mac"), .daemon .own (.removalCheck 1),
    .daemon .own (.removalDetached 1), .listener 0 .recv]

/-- A USB device arrives for a client that listens. -/
def arrivalRun : List Action :=
  [.subscribe 0, .listener 0 .beginSnapshot, .listener 0 .endSnapshot,
    .daemon .own (.usbConnected 0 ⟨APPLE_VID, some "A", 1⟩ none), .daemon .own .usbRetain,
    .daemon .own .usbInsert]

/-- Nothing tells the client of the device. -/
theorem not_converged_arrival : ¬∀ as, StepSystem.EveryState step Converged start as := by
  intro h
  have hlast := (h arrivalRun).last rfl
  have hview := hlast rfl 0 [] rfl 0
  exact List.not_mem_nil (hview.mpr rfl)

theorem converged_networkRun : StepSystem.EveryState step Converged start networkRun := by
  apply converged_of_keepsViews
  have hinsert : ∀ id info, UsbTask.retained 0 ⟨APPLE_VID, some "A", 1⟩ = .retained id info →
      Registry.coversNone .empty (Device.usb info).serialNumber = true := by
    rintro _ _ ⟨⟩
    rfl
  refine .intro ⟨Daemon.readsRight_own _ _, trivial, nofun⟩ ?_
  refine .intro (keepsViews_of_clean trivial nofun) ?_
  refine .intro (keepsViews_of_clean hinsert nofun) ?_
  -- the client subscribes and reads its snapshot
  refine .intro trivial (.intro rfl (.intro ?_ (.intro trivial ?_)))
  · rintro mac serial ⟨⟩
  -- the network device comes
  refine .intro (keepsViews_of_clean trivial nofun) ?_
  refine .intro (keepsViews_of_clean ?_ nofun) ?_
  · rintro mac serial ⟨⟩
    rfl
  refine .intro (keepsViews_of_clean trivial nofun) ?_
  refine .intro (keepsViews_of_clean trivial nofun) (.intro trivial ?_)
  -- and goes
  refine .intro (keepsViews_of_clean trivial nofun) ?_
  refine .intro (keepsViews_of_clean trivial nofun) ?_
  exact .intro (keepsViews_of_clean trivial nofun) (.intro trivial trivial)

end Watchers

end Rusbmux
